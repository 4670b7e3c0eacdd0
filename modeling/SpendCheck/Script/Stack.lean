import SpendCheck.Script.StackValue

/-!
# The stack

The top of the stack is the head of the list, so that what a script does to the
top leaves everything below in place.  Listings show the bottom first.
-/

namespace SpendCheck

abbrev Stack := List StackValue

/-- An operation asked for more items than there are. -/
structure StackUnderflow where
deriving DecidableEq, Repr

def StackUnderflow.message (_ : StackUnderflow) : String :=
  "Stack underflow: an operation required more items than the stack holds"

namespace Stack

def ofBottomFirst (values : List StackValue) : Stack := values.reverse

def bottomFirst (stack : Stack) : List StackValue := stack.reverse

/-- Puts a list on top, its first item lowest. -/
def extend (stack : Stack) (values : List StackValue) : Stack := values.reverse ++ stack

def top : Stack → Except StackUnderflow StackValue
  | value :: _ => .ok value
  | [] => .error {}

def pop : Stack → Except StackUnderflow (StackValue × Stack)
  | value :: below => .ok (value, below)
  | [] => .error {}

def render (stack : Stack) : String :=
  "[" ++ String.intercalate ", " (stack.bottomFirst.map StackValue.render) ++ "]"

end Stack
end SpendCheck
