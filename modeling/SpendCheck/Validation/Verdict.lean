import SpendCheck.Script.Error
import SpendCheck.Spend.Template

/-!
# Verdicts

How an input is judged, and what stops the judgement of a whole transaction.
-/

namespace SpendCheck

/-- Why a single input fails. -/
inductive InputError where
  | script (error : ScriptError)
  | emptyStack
  /-- Positions count from the bottom of the stack. -/
  | notTrue (position : Nat) (value : StackValue)
  | unverifiedTaproot
deriving DecidableEq, Repr

def InputError.message : InputError → String
  | .script error => error.message
  | .emptyStack => "script execution left the stack empty"
  | .notTrue position value =>
    s!"stack item #{position} `{value.render}` left after script execution is not `true`"
  | .unverifiedTaproot => "taproot spending can't be verified"

/-- An input as messages name it. -/
structure InputName where
  transaction : String
  index : Nat
  outpoint : String
deriving DecidableEq, Repr

/-- Why a whole transaction cannot be judged. -/
inductive ValidationError where
  | unsupportedTemplate (input : InputName) (error : TemplateError)
  | unsupportedRegime (input : InputName) (error : ContextError)
  | txData (error : DataError)
deriving DecidableEq, Repr

def ValidationError.message : ValidationError → String
  | .unsupportedTemplate input error =>
    s!"input #{input.index} ({input.outpoint}) of transaction {input.transaction} has unsupported spending: {error.message}"
  | .unsupportedRegime input error =>
    s!"signatures of input #{input.index} ({input.outpoint}) of transaction {input.transaction} can't be checked: {error.message}"
  | .txData error => error.message

inductive Verdict where
  | valid
  /-- Accepted by the configuration without being evaluated. -/
  | unverified
  | invalid (error : InputError)
deriving DecidableEq, Repr

namespace Verdict

def render : Verdict → String
  | valid => "valid"
  | unverified => "unverified"
  | invalid error => s!"invalid: {error.message}"

def passed : Verdict → Bool
  | invalid _ => false
  | _ => true

end Verdict

structure InputReport where
  index : Nat
  template : Template
  verdict : Verdict
deriving DecidableEq, Repr

def InputReport.render (r : InputReport) : String :=
  s!"#{r.index} {r.template.name}: {r.verdict.render}"

/-- The reports of all inputs, in their order. -/
structure Report where
  inputs : List InputReport
deriving DecidableEq, Repr

namespace Report

/-- No input failed; so a transaction without inputs is valid. -/
def isValid (r : Report) : Bool := r.inputs.all fun i => i.verdict.passed

def hasUnverified (r : Report) : Bool := r.inputs.any fun i => i.verdict = .unverified

def failures (r : Report) : List InputReport := r.inputs.filter fun i => !i.verdict.passed

end Report
end SpendCheck
