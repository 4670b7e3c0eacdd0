import SpendCheck.Script.Effect
import SpendCheck.Signature.Session

/-!
# Running scripts

A script runs token by token from left to right, and so a run is a fold: running
one script after another is running their concatenation.  What makes that true
across a push is that a push still waiting for its data is part of the machine's
state.
-/

namespace SpendCheck

structure Machine where
  stack : Stack
  /-- Executed opcodes; data behind a push does not count. -/
  steps : Nat
  pending : Option Push
deriving DecidableEq, Repr

/-- What a run depends on beside its script and stack. -/
structure Runner where
  verifier : Verifier
  inputIndex : Nat
  limit : Option Nat

namespace Machine

def start (stack : Stack) : Machine := { stack, steps := 0, pending := none }

/-- A script may not end between a push and its data. -/
def finish (m : Machine) : Except ScriptError Stack :=
  match m.pending with
  | none => .ok m.stack
  | some push => .error (.missingPushData push.opcode)

end Machine

namespace Runner

variable {tx : Transaction}

/-- The limit that a number of steps exceeds, if it exceeds any. -/
def exceeded? (r : Runner) (steps : Nat) : Option Nat := r.limit.filter (· < steps)

/-- Checks signatures for the input of the run, and tells the outcome. -/
def check (r : Runner) (signatures keys : List Bytes) : Exec ScriptError (Session tx) Bool := do
  let accepted ← ExceptT.adapt ScriptError.context
    (Session.checkSignatures r.verifier r.inputIndex signatures keys)
  (Traced.note (.checked r.inputIndex accepted signatures.length keys.length) : Traced Event Unit)
  return accepted

/-- Carries out an effect in a machine that has made so many steps. -/
def settle (r : Runner) (steps : Nat) : Effect → Exec ScriptError (Session tx) Machine
  | .settled stack => return { stack, steps, pending := none }
  | .awaits push stack => return { stack, steps, pending := some push }
  | .asks signatures keys below => do
    let accepted ← r.check signatures keys
    return { stack := .bool accepted :: below, steps, pending := none }

/-- Executes a token as an opcode. -/
def execute (r : Runner) (m : Machine) (token : String) :
    Exec ScriptError (Session tx) Machine := do
  let steps := m.steps + 1
  if let some limit := r.exceeded? steps then throw (.stepLimitExceeded limit)
  let opcode ← liftExcept ((Opcode.parse token).mapError ScriptError.token)
  (Traced.note (.step r.inputIndex steps opcode m.stack.length) : Traced Event Unit)
  let effect ← liftExcept (opcode.effect m.stack)
  r.settle steps effect

/-- Takes in a token: as the data of a push that waits for it, or as an opcode. -/
def feed (r : Runner) (m : Machine) (token : String) : Exec ScriptError (Session tx) Machine :=
  match m.pending with
  | some push => do
    let value ← liftExcept (push.value token)
    return { m with stack := value :: m.stack, pending := none }
  | none => r.execute m token

/-- Runs a script over a stack, to the stack it leaves or to its first failure. -/
def run (r : Runner) (script : Asm) (stack : Stack) : Exec ScriptError (Session tx) Stack := do
  let m ← script.foldlM r.feed (Machine.start stack)
  liftExcept m.finish

/-- The second script goes on from the machine that the first one leaves. -/
theorem run_append (r : Runner) (first second : Asm) (stack : Stack) :
    (r.run (first ++ second) stack : Exec ScriptError (Session tx) Stack) = (do
      let m ← first.foldlM r.feed (Machine.start stack)
      let m ← second.foldlM r.feed m
      liftExcept m.finish) := by
  simp [run]

end Runner
end SpendCheck
