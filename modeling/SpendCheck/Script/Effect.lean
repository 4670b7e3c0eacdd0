import SpendCheck.Hash.Basic
import SpendCheck.Script.Error
import SpendCheck.Script.Stack

/-!
# What opcodes do

The effect of one opcode on the stack.  A push opcode asks for the token behind
it, and a signature opcode for a decision; everything else is settled on the stack
alone.
-/

namespace SpendCheck

/-- A push that still waits for its data. -/
inductive Push where
  | any
  | exactly (length : UInt8)
deriving DecidableEq, Repr

namespace Push

def opcode : Push → Opcode
  | any => .pushData1
  | exactly length => .pushBytes length

/-- The value that a token is pushed as.  A push of stated length takes hex only,
and of no other length. -/
def value (token : String) : Push → Except ScriptError StackValue
  | any => .ok (.ofToken token)
  | exactly length =>
    match Hex.decode token with
    | .error _ => .error (.nonHexPushData token)
    | .ok data =>
      if data.length = length.toNat then .ok (.bytes data)
      else .error (.pushSizeMismatch length data.length)

end Push

inductive Effect where
  | settled (stack : Stack)
  | awaits (push : Push) (stack : Stack)
  /-- The decision goes on top of what is left below the operands. -/
  | asks (signatures keys : List Bytes) (below : Stack)
deriving DecidableEq, Repr

namespace Stack

def topValue (stack : Stack) : Except ScriptError StackValue :=
  stack.top.mapError fun _ => .stackUnderflow

def popValue (stack : Stack) : Except ScriptError (StackValue × Stack) :=
  stack.pop.mapError fun _ => .stackUnderflow

@[simp] theorem topValue_nil : topValue [] = .error .stackUnderflow := rfl

@[simp] theorem topValue_cons (value : StackValue) (below : Stack) :
    topValue (value :: below) = .ok value := rfl

@[simp] theorem popValue_nil : popValue [] = .error .stackUnderflow := rfl

@[simp] theorem popValue_cons (value : StackValue) (below : Stack) :
    popValue (value :: below) = .ok (value, below) := rfl

def popBytes (opcode : Opcode) (stack : Stack) : Except ScriptError (Bytes × Stack) := do
  let (value, below) ← stack.popValue
  match value with
  | .bytes data => .ok (data, below)
  | value => .error (.nonDataOperand opcode value)

/-- Pops `count` data items and puts them before `pushedLater`, so that they come
out in the order in which they were pushed.  The stack may end before a large
count does. -/
def popMany (opcode : Opcode) :
    (count : Nat) → (stack : Stack) → (pushedLater : List Bytes) →
      Except ScriptError (List Bytes × Stack)
  | 0, stack, pushedLater => .ok (pushedLater, stack)
  | count + 1, stack, pushedLater => do
    let (data, below) ← stack.popBytes opcode
    popMany opcode count below (data :: pushedLater)

/-- Pops a count and as many data items, in the order in which they were pushed. -/
def popList (opcode : Opcode) (stack : Stack) : Except ScriptError (List Bytes × Stack) := do
  let (value, below) ← stack.popValue
  match value.pushNum? with
  | none => .error (.invalidPushNum value)
  | some count => popMany opcode count below []

end Stack

namespace Opcode

def effect (opcode : Opcode) (stack : Stack) : Except ScriptError Effect :=
  match opcode with
  | zero => .ok (.settled stack)
  | dup => do
    let top ← stack.topValue
    return .settled (top :: stack)
  | hash160 => do
    let (data, below) ← stack.popBytes opcode
    return .settled (.bytes (SpendCheck.hash160 data).toList :: below)
  | sha256 => do
    let (data, below) ← stack.popBytes opcode
    return .settled (.bytes (Sha256.hash data).toList :: below)
  | equal => do
    let (first, stack) ← stack.popValue
    let (second, below) ← stack.popValue
    return .settled (.bool (first = second) :: below)
  | equalVerify => do
    let (first, stack) ← stack.popValue
    let (second, below) ← stack.popValue
    if first = second then return .settled below else .error (.verifyFailed first second)
  | pushData1 => .ok (.awaits .any stack)
  | pushBytes length => .ok (.awaits (.exactly length) stack)
  | checkSig => do
    let (key, stack) ← stack.popBytes opcode
    let (signature, below) ← stack.popBytes opcode
    return .asks [signature] [key] below
  | checkMultiSig => do
    let (keys, stack) ← stack.popList opcode
    let (signatures, below) ← stack.popList opcode
    return .asks signatures keys below
  | literal token => .ok (.settled (.ofToken token :: stack))

end Opcode
end SpendCheck
