/-!
# JSON values

A number written without fraction and exponent, and small enough for a signed or
an unsigned 64-bit integer, is an `integer`.  Every other number is kept as the
`decimal` text it was written in: nothing here computes with it, and no integer
field accepts it.
-/

namespace SpendCheck

inductive Json where
  | null
  | bool (value : Bool)
  | integer (value : Int)
  | decimal (literal : String)
  | string (value : String)
  | array (items : List Json)
  | object (members : List (String × Json))
deriving Repr, Inhabited

namespace Json

def ofNat (n : Nat) : Json := .integer n

/-- The members of an object in the order in which their keys first occurred,
each with the value given last. -/
def insertMember (members : List (String × Json)) (key : String) (value : Json) :
    List (String × Json) :=
  match members with
  | [] => [(key, value)]
  | (k, v) :: rest =>
    if k = key then (key, value) :: rest else (k, v) :: insertMember rest key value

/-- The value of a member; nothing for a value that is not an object. -/
def get? : Json → String → Option Json
  | .object members, key => members.lookup key
  | _, _ => none

def nat? : Json → Option Nat
  | .integer n => n.toNat?
  | _ => none

/-- An unsigned integer below `bound`. -/
def natBelow? (bound : Nat) (json : Json) : Option Nat :=
  json.nat?.filter (· < bound)

def string? : Json → Option String
  | .string s => some s
  | _ => none

def bool? : Json → Option Bool
  | .bool b => some b
  | _ => none

def array? : Json → Option (List Json)
  | .array items => some items
  | _ => none

end Json
end SpendCheck
