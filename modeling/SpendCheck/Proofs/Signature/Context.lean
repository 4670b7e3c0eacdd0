import SpendCheck.Proofs.Trace.Outcome
import SpendCheck.Signature.Context

/-!
# Contexts of the spends that have one

When an input has a context, and which.  Each lemma takes one type of locking script
and says what has to be given for its substitute to exist.
-/

namespace SpendCheck

theorem decodeData_eq_ok {text : String} {data : Bytes} :
    decodeData text = .ok data ↔ Hex.decode text = .ok data := mapError_eq_ok

theorem Regime.ofInput_eq_legacy {i : Input} : Regime.ofInput i = .legacy ↔ i.witness = none := by
  unfold Regime.ofInput Input.hasWitness
  cases i.witness <;> simp

theorem Regime.ofInput_eq_segwit {i : Input} :
    Regime.ofInput i = .segwit ↔ i.witness.isSome = true := by
  unfold Regime.ofInput Input.hasWitness
  cases i.witness <;> simp

theorem Transaction.input_eq_ok {tx : Transaction} {index : Nat} {i : Input} :
    tx.input index = .ok i ↔ tx.inputs[index]? = some i := by
  rw [input]
  cases tx.inputs[index]? <;> simp

namespace Context

theorem substitute_p2sh {i : Input} (htype : i.prevout.type = .p2sh) {script : Bytes} :
    substitute i = .ok script ↔
      ∃ token, i.scriptSigTokens.getLast? = some token ∧ Hex.decode token = .ok script := by
  unfold substitute
  rw [htype]
  cases i.scriptSigTokens.getLast? with
  | none => simp
  | some token =>
    simp only [Option.some.injEq, exists_eq_left', ← decodeData_eq_ok, mapError_eq_ok]

theorem substitute_p2pkh {i : Input} (htype : i.prevout.type = .p2pkh) {script : Bytes} :
    substitute i = .ok script ↔ i.witness = none ∧ i.prevout.scriptBytes = .ok script := by
  unfold substitute
  rw [htype, ← Regime.ofInput_eq_legacy]
  cases Regime.ofInput i with
  | legacy => simp [mapError_eq_ok]
  | segwit => simp

theorem substitute_v0P2wpkh {i : Input} (htype : i.prevout.type = .v0P2wpkh) {script : Bytes} :
    substitute i = .ok script ↔
      i.witness.isSome = true ∧ i.prevout.scriptBytes = .ok script := by
  unfold substitute
  rw [htype, ← Regime.ofInput_eq_segwit]
  cases Regime.ofInput i with
  | legacy => simp
  | segwit => simp [mapError_eq_ok]

theorem scriptCodeOf_legacy {i : Input} (hw : i.witness = none) (script : Bytes) :
    scriptCodeOf i script = .ok script := by
  unfold scriptCodeOf
  rw [Regime.ofInput_eq_legacy.mpr hw]

def keyHashProgram (keyHash : Hash160) : Bytes := 0x00 :: 0x14 :: keyHash.toList

def scriptHashProgram (scriptHash : Hash256) : Bytes := 0x00 :: 0x20 :: scriptHash.toList

/-- `OP_DUP OP_HASH160 OP_PUSHBYTES_20 keyHash OP_EQUALVERIFY OP_CHECKSIG`. -/
def keyHashScript (keyHash : Hash160) : Bytes :=
  [0x76, 0xa9, 0x14] ++ keyHash.toList ++ [0x88, 0xac]

theorem scriptCodeOf_keyHashProgram {i : Input} (hw : i.witness.isSome = true)
    (keyHash : Hash160) :
    scriptCodeOf i (keyHashProgram keyHash) = .ok (keyHashScript keyHash) := by
  have hprogram : isKeyHashProgram (keyHashProgram keyHash) = true := by
    simp [isKeyHashProgram, keyHashProgram]
  unfold scriptCodeOf
  rw [Regime.ofInput_eq_segwit.mpr hw]
  simp only [hprogram, if_true]
  rfl

/-- For a script hash program signatures commit to the last item of the witness. -/
theorem scriptCodeOf_scriptHashProgram {i : Input} (hw : i.witness.isSome = true)
    (scriptHash : Hash256) {code : Bytes} :
    scriptCodeOf i (scriptHashProgram scriptHash) = .ok code ↔
      ∃ item, i.witnessItems.getLast? = some item ∧ Hex.decode item = .ok code := by
  have hkey : isKeyHashProgram (scriptHashProgram scriptHash) = false := by
    simp [isKeyHashProgram, scriptHashProgram]
  have hscript : isScriptHashProgram (scriptHashProgram scriptHash) = true := by
    simp [isScriptHashProgram, scriptHashProgram]
  unfold scriptCodeOf
  rw [Regime.ofInput_eq_segwit.mpr hw]
  simp only [hkey, hscript, if_true, Bool.false_eq_true, if_false]
  cases i.witnessItems.getLast? with
  | none => simp
  | some item =>
    simp only [Option.some.injEq, exists_eq_left', mapError_eq_ok, decodeData_eq_ok]

/-- Whatever the substitute, it has a script code where the witness, if there is one, ends
in hex. -/
theorem exists_scriptCodeOf {i : Input} (hitem : i.witness = none ∨
      ∃ item data, i.witnessItems.getLast? = some item ∧ Hex.decode item = .ok data)
    (script : Bytes) : ∃ code, scriptCodeOf i script = .ok code := by
  obtain hwitness | ⟨item, data, hlast, hdata⟩ := hitem
  · exact ⟨script, scriptCodeOf_legacy hwitness script⟩
  · unfold scriptCodeOf
    cases Regime.ofInput i with
    | legacy => exact ⟨script, rfl⟩
    | segwit =>
      simp only [hlast, decodeData_eq_ok.mpr hdata]
      split
      · exact ⟨_, rfl⟩
      · split
        · exact ⟨data, rfl⟩
        · exact ⟨script, rfl⟩

/-- An input has a context when it has a substitute and the substitute a script
code. -/
theorem ofInput_eq_ok {tx : Transaction} {index : Nat} {i : Input}
    (hi : tx.inputs[index]? = some i) {context : Context} :
    ofInput tx index = .ok context ↔
      ∃ script code, substitute i = .ok script ∧ scriptCodeOf i script = .ok code ∧
        context = ⟨Regime.ofInput i, index, code, i.prevout.value⟩ := by
  have hinput : (tx.input index).mapError ContextError.txData = .ok i :=
    mapError_eq_ok.mpr (Transaction.input_eq_ok.mpr hi)
  simp only [ofInput, hinput, bind_eq_ok, pure_eq_ok, Except.ok.injEq]
  constructor
  · intro h
    rcases h with ⟨_, rfl, script, hscript, code, hcode, rfl⟩
    exact ⟨script, code, hscript, hcode, rfl⟩
  · intro h
    rcases h with ⟨script, code, hscript, hcode, rfl⟩
    exact ⟨i, rfl, script, hscript, code, hcode, rfl⟩

section Spends

variable {tx : Transaction} {index : Nat} {i : Input} {context : Context}

theorem ofInput_p2pkh (hi : tx.inputs[index]? = some i) (htype : i.prevout.type = .p2pkh) :
    ofInput tx index = .ok context ↔
      i.witness = none ∧ ∃ code, i.prevout.scriptBytes = .ok code ∧
        context = ⟨.legacy, index, code, i.prevout.value⟩ := by
  rw [ofInput_eq_ok hi]
  constructor
  · intro h
    obtain ⟨script, code, hsubstitute, hcode, rfl⟩ := h
    obtain ⟨hwitness, hscript⟩ := (substitute_p2pkh htype).mp hsubstitute
    obtain rfl : script = code :=
      Except.ok.inj ((scriptCodeOf_legacy hwitness script).symm.trans hcode)
    exact ⟨hwitness, script, hscript, by rw [Regime.ofInput_eq_legacy.mpr hwitness]⟩
  · intro h
    obtain ⟨hwitness, code, hscript, rfl⟩ := h
    exact ⟨code, code, (substitute_p2pkh htype).mpr ⟨hwitness, hscript⟩,
      scriptCodeOf_legacy hwitness code, by rw [Regime.ofInput_eq_legacy.mpr hwitness]⟩

theorem exists_ofInput_p2sh (hi : tx.inputs[index]? = some i) (htype : i.prevout.type = .p2sh)
    (hitem : i.witness = none ∨
      ∃ item data, i.witnessItems.getLast? = some item ∧ Hex.decode item = .ok data) :
    (∃ context, ofInput tx index = .ok context) ↔
      ∃ token data, i.scriptSigTokens.getLast? = some token ∧ Hex.decode token = .ok data := by
  constructor
  · intro h
    obtain ⟨_, hcontext⟩ := h
    obtain ⟨script, _, hsubstitute, -⟩ := (ofInput_eq_ok hi).mp hcontext
    obtain ⟨token, htoken, hscript⟩ := (substitute_p2sh htype).mp hsubstitute
    exact ⟨token, script, htoken, hscript⟩
  · intro h
    obtain ⟨token, script, htoken, hscript⟩ := h
    obtain ⟨code, hcode⟩ := exists_scriptCodeOf hitem script
    exact ⟨_, (ofInput_eq_ok hi).mpr
      ⟨script, code, (substitute_p2sh htype).mpr ⟨token, htoken, hscript⟩, hcode, rfl⟩⟩

/-- Where the script that a witness spends is a key hash program, be it the locking
script or the redeem script, signatures commit to the script that pays to the key
hash. -/
theorem ofInput_of_keyHashProgram (hi : tx.inputs[index]? = some i)
    (hwitness : i.witness.isSome = true) {keyHash : Hash160}
    (hsubstitute : substitute i = .ok (keyHashProgram keyHash)) :
    ofInput tx index =
      .ok ⟨.segwit, index, keyHashScript keyHash, i.prevout.value⟩ := by
  rw [ofInput_eq_ok hi]
  exact ⟨_, _, hsubstitute, scriptCodeOf_keyHashProgram hwitness keyHash,
    by rw [Regime.ofInput_eq_segwit.mpr hwitness]⟩

theorem ofInput_of_scriptHashProgram (hi : tx.inputs[index]? = some i)
    (hwitness : i.witness.isSome = true) {scriptHash : Hash256}
    (hsubstitute : substitute i = .ok (scriptHashProgram scriptHash)) :
    ofInput tx index = .ok context ↔
      ∃ item code, i.witnessItems.getLast? = some item ∧ Hex.decode item = .ok code ∧
        context = ⟨.segwit, index, code, i.prevout.value⟩ := by
  rw [ofInput_eq_ok hi, Regime.ofInput_eq_segwit.mpr hwitness]
  constructor
  · intro h
    obtain ⟨script, code, hscript, hcode, rfl⟩ := h
    obtain rfl := Except.ok.inj (hsubstitute.symm.trans hscript)
    obtain ⟨item, hitem, hdata⟩ := (scriptCodeOf_scriptHashProgram hwitness scriptHash).mp hcode
    exact ⟨item, code, hitem, hdata, rfl⟩
  · intro h
    obtain ⟨item, code, hitem, hdata, rfl⟩ := h
    exact ⟨_, code, hsubstitute,
      (scriptCodeOf_scriptHashProgram hwitness scriptHash).mpr ⟨item, hitem, hdata⟩, rfl⟩

end Spends

end Context
end SpendCheck
