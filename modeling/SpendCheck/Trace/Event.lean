import SpendCheck.Signature.Verifier
import SpendCheck.Validation.Verdict

/-!
# Events

What happens while transactions are checked, selected and mined.  Calls of the
verifier are events that make no log record.
-/

namespace SpendCheck

inductive Event where
  /-- An opcode is about to be executed over a stack of the given height. -/
  | step (input number : Nat) (opcode : Opcode) (height : Nat)
  | call (call : Call)
  | remark (remark : Remark)
  | checked (input : Nat) (accepted : Bool) (signatures keys : Nat)
  | acceptedUnverified (input : InputName)
  | invalidInput (input : InputName) (template : Template) (error : InputError)
  | rejected (error : ValidationError)
  /-- A transaction that validates and cannot be weighed. -/
  | skipped (transaction : String) (error : DataError)
  | selected (count candidates fee weight : Nat)
  | mined (hash : Hash256) (nonce : UInt32)
deriving DecidableEq

inductive Level where
  | trace
  | debug
  | info
  | warn
deriving DecidableEq, Repr

def Level.name : Level → String
  | trace => "TRACE"
  | debug => "DEBUG"
  | info => "INFO"
  | warn => "WARN"

structure LogRecord where
  level : Level
  message : String
deriving DecidableEq, Repr

def LogRecord.render (r : LogRecord) : String := s!"{r.level.name}: {r.message}"

namespace Event

def log? : Event → Option LogRecord
  | step input number opcode height =>
    some ⟨.trace, s!"input #{input} step {number}: {opcode.render} over stack of {height} items"⟩
  | call _ => none
  | remark r => some ⟨.debug, r.message⟩
  | checked input accepted signatures keys =>
    let outcome := if accepted then "accepted" else "rejected"
    some ⟨.trace, s!"input #{input}: {outcome} of {signatures} signature(s) against {keys} key(s)"⟩
  | acceptedUnverified input =>
    some ⟨.warn, s!"input #{input.index} ({input.outpoint}) of transaction {input.transaction} is accepted without verification"⟩
  | invalidInput input template error =>
    some ⟨.debug, s!"input #{input.index} ({input.outpoint}) {template.name} is invalid: {error.message}"⟩
  | rejected error => some ⟨.debug, s!"transaction rejected: {error.message}"⟩
  | skipped transaction error =>
    some ⟨.debug, s!"transaction {transaction} is skipped: {error.message}"⟩
  | selected count candidates fee weight =>
    some ⟨.info, s!"selected {count} of {candidates} transactions with total fee {fee} and weight {weight}"⟩
  | mined hash nonce =>
    some ⟨.info, s!"block {Hex.encodeHash hash} mined with nonce {nonce.toNat}"⟩

def call? : Event → Option Call
  | call c => some c
  | _ => none

end Event

/-- The verifier calls of a trace, in order. -/
def callsOf (trace : List Event) : List Call := trace.filterMap Event.call?

@[simp] theorem callsOf_append (a b : List Event) : callsOf (a ++ b) = callsOf a ++ callsOf b :=
  List.filterMap_append

/-- A computation that may stop with an error, over a state that outlives the
error, and with a trace of events. -/
abbrev Exec (ε σ : Type) := ExceptT ε (StateT σ (Traced Event))

end SpendCheck
