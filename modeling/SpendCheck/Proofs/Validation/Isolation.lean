import SpendCheck.Proofs.Script.Agree
import SpendCheck.Proofs.Validation.Accepts

/-!
# Inputs are judged apart

The judgement of an input looks at the input itself, at the reported id and at the
skeleton.  Of the other inputs the skeleton holds no more than which outputs they
spend, and their sequence numbers.  So two transactions with that in common get one
and the same report on an input that they share, or one and the same error.
-/

namespace SpendCheck

open Exec

/-- What other inputs' signatures commit to of an input. -/
def Input.reference (i : Input) : String × UInt32 × UInt32 := (i.txid, i.vout, i.sequence)

/-- What signatures commit to of an output. -/
def Output.payment (o : Output) : UInt64 × String := (o.value, o.script)

/-- The transactions have in common what each of them shows to all of its inputs. -/
structure Transaction.Resembles (tx₁ tx₂ : Transaction) : Prop where
  txid : tx₁.txid = tx₂.txid
  version : tx₁.version = tx₂.version
  lockTime : tx₁.lockTime = tx₂.lockTime
  inputs : tx₁.inputs.map Input.reference = tx₂.inputs.map Input.reference
  outputs : tx₁.outputs.map Output.payment = tx₂.outputs.map Output.payment

section Skeleton

theorem mapM_eq_of_map_eq {α β γ ε : Type} {view : α → γ} {f : α → Except ε β}
    (hf : ∀ a b, view a = view b → f a = f b) {l₁ l₂ : List α}
    (h : l₁.map view = l₂.map view) : l₁.mapM f = l₂.mapM f := by
  induction l₁ generalizing l₂ with
  | nil =>
    obtain rfl : l₂ = [] := by simpa using h.symm
    rfl
  | cons a l₁ ih =>
    cases l₂ with
    | nil => simp at h
    | cons b l₂ =>
      obtain ⟨hhead, htail⟩ : view a = view b ∧ l₁.map view = l₂.map view := by simpa using h
      rw [List.mapM_cons, List.mapM_cons, hf a b hhead, ih htail]

theorem Input.toBare_of_reference {i j : Input} (h : i.reference = j.reference) :
    i.toBare = j.toBare := by
  obtain ⟨htxid, hvout, hsequence⟩ :
      i.txid = j.txid ∧ i.vout = j.vout ∧ i.sequence = j.sequence := by
    simpa [reference] using h
  rw [toBare, toBare, outpoint, outpoint, htxid, hvout, hsequence]

theorem Output.toRaw_of_payment {o p : Output} (h : o.payment = p.payment) :
    o.toRaw = p.toRaw := by
  obtain ⟨hvalue, hscript⟩ : o.value = p.value ∧ o.script = p.script := by
    simpa [payment] using h
  rw [toRaw, toRaw, scriptBytes, scriptBytes, hvalue, hscript]

theorem Transaction.Resembles.skeleton {tx₁ tx₂ : Transaction} (h : tx₁.Resembles tx₂) :
    tx₁.skeleton = tx₂.skeleton := by
  have hinputs := mapM_eq_of_map_eq (fun _ _ => Input.toBare_of_reference) h.inputs
  have houtputs := mapM_eq_of_map_eq (fun _ _ => Output.toRaw_of_payment) h.outputs
  rw [Transaction.skeleton, Transaction.skeleton, convert, convert, hinputs, houtputs, h.version,
    h.lockTime]

end Skeleton

theorem Transaction.Resembles.set {tx : Transaction} {place : Nat} {old new : Input}
    (hold : tx.inputs[place]? = some old) (hsame : old.reference = new.reference) :
    tx.Resembles { tx with inputs := tx.inputs.set place new } where
  txid := rfl
  version := rfl
  lockTime := rfl
  inputs := by
    have hplace : (tx.inputs.map Input.reference)[place]? = some new.reference := by
      rw [List.getElem?_map, hold, Option.map_some, hsame]
    obtain ⟨hlt, hget⟩ := List.getElem?_eq_some_iff.mp hplace
    show _ = (tx.inputs.set place new).map Input.reference
    rw [List.map_set, ← hget, List.set_getElem_self]
  outputs := rfl

namespace Validator

variable {v : Validator} {index : Nat}

section Transactions

variable {tx₁ tx₂ : Transaction} (hfree : v.verifier.HistoryFree)
  (hinput : tx₁.inputs[index]? = tx₂.inputs[index]?) (hskeleton : tx₁.skeleton = tx₂.skeleton)

theorem input_congr (hinput : tx₁.inputs[index]? = tx₂.inputs[index]?) :
    tx₁.input index = tx₂.input index := by
  rw [Transaction.input, Transaction.input, hinput]

theorem context_congr (hinput : tx₁.inputs[index]? = tx₂.inputs[index]?) :
    Context.ofInput tx₁ index = Context.ofInput tx₂ index := by
  rw [Context.ofInput, Context.ofInput, input_congr hinput]

include hfree hinput hskeleton

theorem agree_judgeProgram {name : InputName} (hname : name.index = index) (program : Program) :
    Agree (v.judgeProgram name program : Exec ValidationError (Session tx₁) Verdict)
      (v.judgeProgram name program : Exec ValidationError (Session tx₂) Verdict) := by
  subst hname
  intro s t
  obtain ⟨hresult, hcalls⟩ := Runner.agree_run (r := v.runner name.index) hfree
    (context_congr hinput) hskeleton program.script program.stack s t
  rw [outcome_judgeProgram, outcome_judgeProgram]
  exact ⟨congrArg (verdictOf name) hresult, hcalls⟩

theorem agree_judge {name : InputName} (hname : name.index = index) (program : Program) :
    Agree (v.judge name program : Exec ValidationError (Session tx₁) Verdict)
      (v.judge name program : Exec ValidationError (Session tx₂) Verdict) := by
  simp only [judge]
  cases program.template.isVerifiable with
  | true => exact agree_judgeProgram hfree hinput hskeleton hname program
  | false => exact agree_traced _

theorem agree_evaluate (htxid : tx₁.txid = tx₂.txid) :
    Agree (v.evaluate index : Exec ValidationError (Session tx₁) InputReport)
      (v.evaluate index : Exec ValidationError (Session tx₂) InputReport) := by
  have hname : inputName tx₁ index = inputName tx₂ index := by
    funext i
    rw [inputName, inputName, Transaction.name, Transaction.name, htxid]
  simp only [evaluate, input_congr hinput, hname]
  refine (agree_liftExcept _).bind fun i => (agree_liftExcept _).bind fun program => ?_
  refine (agree_judge hfree hinput hskeleton rfl program).bind fun verdict => ?_
  cases verdict with
  | invalid error => exact (agree_traced _).bind fun _ => agree_pure _
  | valid => exact agree_pure _
  | unverified => exact agree_pure _

end Transactions

/-- A transaction is judged at an index as another is: with the same report or error, and
after the same questions to the verifier. -/
def JudgesAlike (v : Validator) (tx₁ tx₂ : Transaction) (index : Nat) : Prop :=
  (v.checkInput tx₁ index).value = (v.checkInput tx₂ index).value ∧
    callsOf (v.checkInput tx₁ index).trace = callsOf (v.checkInput tx₂ index).trace

theorem judgesAlike_of_resembles (hfree : v.verifier.HistoryFree) {tx₁ tx₂ : Transaction}
    (h : tx₁.Resembles tx₂) (hinput : tx₁.inputs[index]? = tx₂.inputs[index]?) :
    v.JudgesAlike tx₁ tx₂ index := by
  rw [JudgesAlike, value_checkInput, value_checkInput, callsOf_checkInput, callsOf_checkInput]
  exact agree_evaluate hfree hinput h.skeleton h.txid Session.fresh Session.fresh

/-- Nothing that belongs to another input has a part in the judgement of an input, but the
output which it spends and its sequence number. -/
theorem checkInput_isolated (hfree : v.verifier.HistoryFree) (index : Nat) :
    (∀ tx₁ tx₂ : Transaction, tx₁.Resembles tx₂ → tx₁.inputs[index]? = tx₂.inputs[index]? →
      v.JudgesAlike tx₁ tx₂ index) ∧
    (∀ (tx : Transaction) (place : Nat) (old new : Input), place ≠ index →
      tx.inputs[place]? = some old → old.reference = new.reference →
      v.JudgesAlike tx { tx with inputs := tx.inputs.set place new } index) := by
  constructor
  · intro tx₁ tx₂ h hinput
    exact judgesAlike_of_resembles hfree h hinput
  · intro tx place old new hplace hold hsame
    have hinput : tx.inputs[index]? = (tx.inputs.set place new)[index]? := by
      rw [List.getElem?_set_ne hplace]
    exact judgesAlike_of_resembles hfree (.set hold hsame) hinput

/-- A witness spend of the hash of a key of a single byte. -/
def witnessSpend : Input :=
  { Input.spending .v0P2wpkh
      "OP_0 OP_PUSHBYTES_20 a6bb94c8792c395785787280dc188d114e1f339b" with
    prevout.script := "0014a6bb94c8792c395785787280dc188d114e1f339b"
    witness := some ["30", "02"] }

/-- An input of a kind that is not supported, with unlocking data that is no hex. -/
def brokenSpend : Input :=
  { Input.spending .multisig "OP_CHECKMULTISIG" with
    scriptSig := "zz"
    scriptSigAsm := "OP_PUSHBYTES_0"
    witness := some ["zz"] }

theorem checkInput_isolated_brokenSpend :
    trusting.JudgesAlike (.ofInputs [Input.spending .p2pkh "", witnessSpend])
      (.ofInputs [brokenSpend, witnessSpend]) 1 ∧
    trusting.Accepts (.ofInputs [brokenSpend, witnessSpend]) 1 := by
  obtain ⟨hresembling, hset⟩ := checkInput_isolated (v := trusting)
    (Verifier.historyFree_ofPredicate _) 1
  have halike := hresembling (.ofInputs [Input.spending .p2pkh "", witnessSpend])
    (.ofInputs [brokenSpend, witnessSpend]) ⟨rfl, rfl, rfl, rfl, rfl⟩ rfl
  have hreplaced : trusting.JudgesAlike (.ofInputs [Input.spending .p2pkh "", witnessSpend])
      (.ofInputs [brokenSpend, witnessSpend]) 1 := hset _ 0 _ brokenSpend (by decide) rfl rfl
  have haccepts : trusting.Accepts (.ofInputs [Input.spending .p2pkh "", witnessSpend]) 1 := by
    decide +kernel
  obtain ⟨report, hvalue, hvalid⟩ := haccepts
  exact ⟨halike, report, hreplaced.1 ▸ hvalue, hvalid⟩

end Validator
end SpendCheck
