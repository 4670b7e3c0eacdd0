import Mathlib
import SpendCheck.Spend.Template

/-!
# What makes an input fit a template

The rules of classification are tried in order.  `Template.Fits` says of each template
on its own what it asks of an input, and `classify_eq_ok` that no more is asked.
-/

namespace SpendCheck

/-- An input that spends an output of this type and lock, and unlocks nothing yet.
Concrete spends are made from it. -/
def Input.spending (type : LockType) (lock : String) : Input where
  txid := Hex.encodeHash (Vector.replicate 32 0)
  vout := 0
  prevout := { script := "", scriptAsm := lock, type, address := none, value := 0 }
  scriptSig := ""
  scriptSigAsm := ""
  witness := none
  isCoinbase := false
  sequence := 0
  redeemScriptAsm := none
  witnessScriptAsm := none

/-- A transaction of these inputs that creates nothing. -/
def Transaction.ofInputs (inputs : List Input) : Transaction where
  txid := none
  version := 2
  lockTime := 0
  inputs := inputs
  outputs := []

/-- The witness program that names the script hash of zeros. -/
def zeroProgram : String :=
  "00200000000000000000000000000000000000000000000000000000000000000000"

namespace Template

def Fits (i : Input) : Template → Prop
  | p2pkh => i.prevout.type = .p2pkh
  | p2sh => i.prevout.type = .p2sh ∧ i.witness = none ∧
      ∃ redeem, i.redeemScript? = some redeem ∧ csvToken ∉ redeem
  | p2shP2wpkh => i.prevout.type = .p2sh ∧ ∃ first second, i.witness = some [first, second]
  | p2shP2wsh => i.prevout.type = .p2sh ∧
      (∃ first second third rest, i.witness = some (first :: second :: third :: rest)) ∧
      ∃ script, i.witnessScript? = some script ∧ csvToken ∉ script ∧ dropToken ∉ script
  | p2wsh => i.prevout.type = .v0P2wsh ∧ (∃ rest, i.witness = some ("" :: rest)) ∧
      ∃ script, i.witnessScript? = some script
  | p2wpkh => i.prevout.type = .v0P2wpkh ∧
      ∃ first second rest, i.witness = some (first :: second :: rest)
  | taproot => i.prevout.type = .v1P2tr

theorem revealing_eq_ok {template found : Template} {type : LockType} {waits : Asm → Bool}
    {script? : Option Asm} :
    revealing template type waits script? = .ok found ↔
      found = template ∧ ∃ script, script? = some script ∧ waits script = false := by
  cases script? with
  | none => simp [revealing]
  | some script =>
    cases h : waits script with
    | false => simpa [revealing, h] using eq_comm
    | true => simp [revealing, h]

theorem fits_of_classify {i : Input} {template : Template} (h : classify i = .ok template) :
    Fits i template := by
  unfold classify at h
  simp only at h
  generalize htype : i.prevout.type = type at h
  generalize hwitness : i.witness = witness at h
  split at h
  case h_2 | h_4 | h_5 =>
    rcases revealing_eq_ok.mp h with ⟨rfl, script, hscript, hwaits⟩
    simp_all [Fits]
  -- Of the other rules some name a template and the rest refuse.
  all_goals cases h <;> simp_all [Fits]

theorem classify_eq_ok {i : Input} {template : Template} :
    classify i = .ok template ↔ Fits i template := by
  constructor
  · exact fits_of_classify
  · intro h
    unfold classify
    cases template with
    | p2pkh => simp only [show i.prevout.type = .p2pkh from h]
    | p2sh =>
      rcases h with ⟨htype, hwitness, redeem, hredeem, hcsv⟩
      simp [htype, hwitness, hredeem, revealing, hcsv]
    | p2shP2wpkh =>
      rcases h with ⟨htype, first, second, hwitness⟩
      simp [htype, hwitness]
    | p2shP2wsh =>
      rcases h with ⟨htype, ⟨first, second, third, rest, hwitness⟩, script, hscript, hcsv, hdrop⟩
      simp [htype, hwitness, hscript, revealing, hcsv, hdrop]
    | p2wsh =>
      rcases h with ⟨htype, ⟨rest, hwitness⟩, script, hscript⟩
      simp [htype, hwitness, hscript, revealing]
    | p2wpkh =>
      rcases h with ⟨htype, first, second, rest, hwitness⟩
      simp [htype, hwitness]
    | taproot => simp only [show i.prevout.type = .v1P2tr from h]

end Template
end SpendCheck
