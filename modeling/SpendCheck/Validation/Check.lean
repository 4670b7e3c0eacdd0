import SpendCheck.Script.Run
import SpendCheck.Spend.Reconstruct
import SpendCheck.Validation.Config

/-!
# Checking transactions

An input is put together into a program, the program is run, and what it leaves on
the stack is the verdict.  An input that fails leaves the others to be judged; one
whose spending is not supported, or whose signatures cannot be checked, stops the
judgement of its transaction.
-/

namespace SpendCheck

/-- A stack passes if it holds something, and nothing but the outcome `true`. -/
def Stack.accept (stack : Stack) : Except InputError Unit :=
  let values := stack.bottomFirst
  if values.isEmpty then .error .emptyStack
  else match values.zipIdx.find? fun (value, _) => !value.isTrue with
    | some (value, position) => .error (.notTrue position value)
    | none => .ok ()

structure Validator where
  verifier : Verifier
  config : Config

namespace Validator

/-- Checks signatures by the curve, under the usual configuration. -/
def standard : Validator := { verifier := Verifier.ecdsa, config := {} }

variable {tx : Transaction}

def inputName (tx : Transaction) (index : Nat) (i : Input) : InputName :=
  { transaction := tx.name, index, outpoint := i.outpointText }

/-- The verdict on a taproot input. -/
def judgeTaproot (v : Validator) (name : InputName) : Traced Event Verdict :=
  match v.config.taproot with
  | .unverified => do
    Traced.note (.acceptedUnverified name)
    return .unverified
  | .reject => return .invalid .unverifiedTaproot

/-- The verdict that the outcome of a run amounts to.  A failure to make out what
signatures commit to is no verdict. -/
def verdictOf (name : InputName) : Except ScriptError Stack → Except ValidationError Verdict
  | .ok stack =>
    match stack.accept with
    | .ok () => .ok .valid
    | .error error => .ok (.invalid error)
  | .error (.context error) => .error (.unsupportedRegime name error)
  | .error error => .ok (.invalid (.script error))

/-- The runner of an input's program. -/
def runner (v : Validator) (index : Nat) : Runner where
  verifier := v.verifier
  inputIndex := index
  limit := v.config.maxSteps.map UInt64.toNat

/-- The verdict on an input whose program is run. -/
def judgeProgram (v : Validator) (name : InputName) (program : Program) :
    Exec ValidationError (Session tx) Verdict := ExceptT.mk do
  let outcome ← ((v.runner name.index).run program.script program.stack).run
  return verdictOf name outcome

def judge (v : Validator) (name : InputName) (program : Program) :
    Exec ValidationError (Session tx) Verdict :=
  if program.template.isVerifiable then v.judgeProgram name program
  else (v.judgeTaproot name : Traced Event Verdict)

/-- Judges the input at an index. -/
def evaluate (v : Validator) (index : Nat) :
    Exec ValidationError (Session tx) InputReport := do
  let i ← liftExcept ((tx.input index).mapError ValidationError.txData)
  let name := inputName tx index i
  let program ← liftExcept ((Program.ofInput i).mapError (ValidationError.unsupportedTemplate name))
  let verdict ← v.judge name program
  if let .invalid error := verdict then
    (Traced.note (.invalidInput name program.template error) : Traced Event Unit)
  return { index, template := program.template, verdict }

/-- Judges a single input, on its own. -/
def checkInput (v : Validator) (tx : Transaction) (index : Nat) :
    Traced Event (Except ValidationError InputReport) := do
  let (result, _) ← (v.evaluate index).run.run (Session.fresh : Session tx)
  return result

/-- Judges all inputs in order.  They share one session. -/
def check (v : Validator) (tx : Transaction) : Traced Event (Except ValidationError Report) := do
  let inputs := (List.range tx.inputs.length).mapM v.evaluate
  let (result, _) ← inputs.run.run (Session.fresh : Session tx)
  return result.map fun inputs => { inputs }

/-- Whether every input passes. -/
def validate (v : Validator) (tx : Transaction) : Traced Event Bool := do
  match ← v.check tx with
  | .ok report => return report.isValid
  | .error error =>
    Traced.note (.rejected error)
    return false

end Validator
end SpendCheck
