import SpendCheck.Proofs.Hash.Sha256
import SpendCheck.Proofs.Signature.History

/-!
# Digests under BIP-143

The last byte of a signature says what the signature commits to.  BIP-143 reads three
rules off its bits and then writes the byte itself at the end of what is hashed.  Here the
rules and the byte that is written are two arguments, since the digest that signatures are
checked against takes the rules from the byte as it is and writes its normal form.  Only
the six bytes in normal form are committed to as they are.
-/

namespace SpendCheck

namespace Bip143

/-- An input that signatures are checked for under BIP-143. -/
structure Spend where
  tx : RawTx
  index : Nat
  signed : RawInput
  isSigned : tx.inputs[index]? = some signed
  scriptCode : Bytes
  value : UInt64

namespace Spend

def context (spend : Spend) : Context where
  regime := .segwit
  inputIndex := spend.index
  scriptCode := spend.scriptCode
  value := spend.value

/-- The outpoints of all inputs, unless the signature leaves other inputs open. -/
def hashPrevouts (spend : Spend) (kind : UInt8) : Hash256 :=
  if kind &&& 0x80 = 0 then doubleSha256 (spend.tx.inputs.flatMap fun i => i.outpoint.encode)
  else Digest.zero

/-- The sequence numbers of all inputs, unless the signature leaves other inputs open or
does not commit to all outputs. -/
def hashSequence (spend : Spend) (kind : UInt8) : Hash256 :=
  if kind &&& 0x80 = 0 ∧ kind &&& 0x1f ≠ 0x02 ∧ kind &&& 0x1f ≠ 0x03 then
    doubleSha256 (spend.tx.inputs.flatMap fun i => Bytes.ofUInt32 i.sequence)
  else Digest.zero

/-- All outputs, or the one at the index of the input if there is one, or none. -/
def hashOutputs (spend : Spend) (kind : UInt8) : Hash256 :=
  if kind &&& 0x1f ≠ 0x02 ∧ kind &&& 0x1f ≠ 0x03 then
    doubleSha256 (spend.tx.outputs.flatMap RawOutput.encode)
  else if kind &&& 0x1f = 0x03 then
    match spend.tx.outputs[spend.index]? with
    | some output => doubleSha256 output.encode
    | none => Digest.zero
  else Digest.zero

/-- What is hashed under the rules of one byte with another one written at the end. -/
def preimage (spend : Spend) (kind written : UInt8) : Bytes :=
  Bytes.ofInt32 spend.tx.version ++ (spend.hashPrevouts kind).toList ++
    (spend.hashSequence kind).toList ++ spend.signed.outpoint.encode ++
    Bytes.counted spend.scriptCode ++ Bytes.ofUInt64 spend.value ++
    Bytes.ofUInt32 spend.signed.sequence ++ (spend.hashOutputs kind).toList ++
    Bytes.ofUInt32 spend.tx.lockTime ++ Bytes.ofNatLE 4 written.toNat

def digest (spend : Spend) (kind written : UInt8) : Hash256 :=
  doubleSha256 (spend.preimage kind written)

end Spend
end Bip143

namespace Scope

/-- The normal form of a byte that says what a signature commits to. -/
def normal (kind : UInt8) : UInt8 := (ofByte kind).toByte

/-- The bytes that are their own normal form. -/
def normals : List UInt8 := [0x01, 0x02, 0x03, 0x81, 0x82, 0x83]

theorem normal_eq_self_iff (kind : UInt8) : normal kind = kind ↔ kind ∈ normals := by
  revert kind
  exact Hex.forall_byte (by decide +kernel)

theorem outputs_ofByte (kind : UInt8) :
    (ofByte kind).outputs =
      if kind &&& 0x1f = 0x02 then .none else if kind &&& 0x1f = 0x03 then .single else .all := rfl

theorem outputs_ofByte_eq_all {kind : UInt8} :
    (ofByte kind).outputs = .all ↔ kind &&& 0x1f ≠ 0x02 ∧ kind &&& 0x1f ≠ 0x03 := by
  rw [outputs_ofByte]
  by_cases hnone : kind &&& 0x1f = 0x02
  · simp [hnone]
  · by_cases hsingle : kind &&& 0x1f = 0x03 <;> simp [hnone, hsingle]

theorem ownInputOnly_ofByte {kind : UInt8} :
    (ofByte kind).ownInputOnly = false ↔ kind &&& 0x80 = 0 := by
  simp [ofByte]

end Scope

namespace Bip143.Spend

variable (spend : Spend) (kind : UInt8)

theorem hashPrevouts_eq : spend.hashPrevouts kind =
    if (Scope.ofByte kind).ownInputOnly then Digest.zero else spend.tx.commitments.prevouts := by
  rw [hashPrevouts]
  by_cases hown : kind &&& 0x80 = 0
  · rw [if_pos hown, Scope.ownInputOnly_ofByte.mpr hown]
    rfl
  · have htrue : (Scope.ofByte kind).ownInputOnly = true := by
      rw [← Bool.not_eq_false, Scope.ownInputOnly_ofByte]
      exact hown
    rw [if_neg hown, htrue]
    rfl

theorem hashSequence_eq : spend.hashSequence kind =
    if (Scope.ofByte kind).ownInputOnly || (Scope.ofByte kind).outputs ≠ .all then Digest.zero
    else spend.tx.commitments.sequences := by
  simp only [hashSequence, ← Scope.ownInputOnly_ofByte, ← Scope.outputs_ofByte_eq_all]
  cases (Scope.ofByte kind).ownInputOnly <;> cases (Scope.ofByte kind).outputs <;>
    simp [RawTx.commitments]

theorem hashOutputs_eq : spend.hashOutputs kind =
    Digest.Segwit.outputsHash spend.tx spend.tx.commitments spend.index
      (Scope.ofByte kind).outputs := by
  rw [hashOutputs, Scope.outputs_ofByte]
  by_cases hnone : kind &&& 0x1f = 0x02
  · simp [hnone, Digest.Segwit.outputsHash]
  · by_cases hsingle : kind &&& 0x1f = 0x03
    · simp only [hsingle, ne_eq, not_true, and_false, if_false, if_true]
      rfl
    · simp only [hnone, hsingle, ne_eq, not_false_iff, and_self, if_true, if_false]
      rfl

/-- The digest that signatures of the input are checked against. -/
theorem ofContext_eq : Digest.ofContext spend.tx spend.context kind =
    .ok (spend.digest kind (Scope.normal kind)) := by
  have hpreimage : Digest.Segwit.preimage spend.tx spend.tx.commitments spend.index spend.signed
      spend.scriptCode spend.value (Scope.ofByte kind) =
        spend.preimage kind (Scope.normal kind) := by
    rw [preimage, hashPrevouts_eq, hashSequence_eq, hashOutputs_eq]
    rfl
  show Digest.segwit spend.tx spend.tx.commitments spend.index spend.scriptCode spend.value kind = _
  rw [Digest.segwit, spend.isSigned]
  simp only [hpreimage]
  rfl

theorem preimage_inj {written other : UInt8} :
    spend.preimage kind written = spend.preimage kind other ↔ written = other := by
  constructor
  · intro h
    have hfield := List.append_cancel_left h
    have hbyte : UInt8.ofNat written.toNat = UInt8.ofNat other.toNat := (List.cons.inj hfield).1
    simpa using hbyte
  · intro h
    rw [h]

end Bip143.Spend

theorem Signature.parse?_concat (der : Bytes) (kind : UInt8) :
    parse? (der ++ [kind]) = (ofDer? der).map fun sig => (sig.lowS, kind) := by
  rw [parse?, List.getLast?_concat, List.dropLast_concat]
  cases ofDer? der <;> rfl

theorem Signature.getLast?_of_parse? {data : Bytes} {sig : Signature} {kind : UInt8}
    (h : parse? data = some (sig, kind)) : data.getLast? = some kind := by
  cases List.eq_nil_or_concat' data with
  | inl hnil =>
    rw [hnil] at h
    cases h
  | inr hconcat =>
    obtain ⟨der, last, hdata⟩ := hconcat
    rw [hdata, parse?_concat] at h
    obtain ⟨_, -, hparsed⟩ := Option.map_eq_some_iff.mp h
    rw [hdata, List.getLast?_concat, (Prod.mk.inj hparsed).2]

namespace Verifier

/-- Matches signatures with keys where the digest for each kind of signature is given. -/
def matchesInOrder (digest : UInt8 → Hash256) : (signatures keys : List Bytes) → Bool
  | [], _ => true
  | data :: signatures, keys =>
    match Signature.parse? data with
    | none => false
    | some (sig, kind) =>
      match keysAfter? (accepts (digest kind) sig) keys with
      | none => false
      | some rest => matchesInOrder digest signatures rest

/-- What is remembered and remarked on the way does not matter to the matching. -/
theorem value_matchInOrder {tx : RawTx} {digest? : UInt8 → Decision tx (Option Hash256)}
    {digest : UInt8 → Hash256}
    (hdigest : ∀ kind cache, ((digest? kind).run cache).value.1 = some (digest kind))
    (signatures keys : List Bytes) (cache : DigestCache tx) :
    ((matchInOrder digest? signatures keys).run cache).value.1 =
      matchesInOrder digest signatures keys := by
  induction signatures generalizing keys cache with
  | nil => rfl
  | cons data signatures ih =>
    rw [matchInOrder, matchesInOrder]
    cases Signature.parse? data with
    | none => rfl
    | some parsed =>
      obtain ⟨sig, kind⟩ := parsed
      simp only [StateT.run_bind, Traced.value_bind, hdigest]
      cases keysAfter? (accepts (digest kind) sig) keys with
      | none => rfl
      | some rest => exact ih rest _

theorem value_contextDigest? (spend : Bip143.Spend) (kind : UInt8)
    (cache : DigestCache spend.tx) :
    ((contextDigest? spend.context kind).run cache).value.1 =
      some (spend.digest kind (Scope.normal kind)) := by
  have hdigest : (DigestCache.digest spend.context kind cache).1 =
      .ok (spend.digest kind (Scope.normal kind)) := by
    rw [DigestCache.digest_fst, spend.ofContext_eq]
  have hlookup : ((modifyGet (DigestCache.digest spend.context kind) :
      Decision spend.tx (Except NoSuchInput Hash256)).run cache).value =
        (.ok (spend.digest kind (Scope.normal kind)),
          (DigestCache.digest spend.context kind cache).2) := by
    rw [← hdigest]
    rfl
  rw [contextDigest?, StateT.run_bind, Traced.value_bind, hlookup]
  rfl

/-- Only the digests for the last bytes of the signatures count. -/
theorem matchesInOrder_congr {digest other : UInt8 → Hash256} {signatures : List Bytes}
    (h : ∀ data ∈ signatures, ∀ kind, data.getLast? = some kind → digest kind = other kind)
    (keys : List Bytes) :
    matchesInOrder digest signatures keys = matchesInOrder other signatures keys := by
  induction signatures generalizing keys with
  | nil => rfl
  | cons data signatures ih =>
    rw [matchesInOrder, matchesInOrder]
    cases hparse : Signature.parse? data with
    | none => rfl
    | some parsed =>
      obtain ⟨sig, kind⟩ := parsed
      have hkind : data.getLast? = some kind := Signature.getLast?_of_parse? hparse
      simp only [h data List.mem_cons_self kind hkind]
      cases keysAfter? (accepts (other kind) sig) keys with
      | none => rfl
      | some rest => exact ih (fun d hd => h d (List.mem_cons_of_mem data hd)) rest

/-- The digests that signatures are checked against.  They commit to the last byte of a
signature as BIP-143 has it just where that byte is in normal form, and to the normal form
in its place everywhere else. -/
theorem segwit_digest_terms (spend : Bip143.Spend) :
    (∀ signatures keys cache,
      ((ecdsa.verifySegwit spend.tx spend.context signatures keys).run cache).value.1 =
        matchesInOrder (fun kind => spend.digest kind (Scope.normal kind)) signatures keys) ∧
    (∀ der kind key cache,
      ((ecdsa.verifySegwit spend.tx spend.context [der ++ [kind]] [key]).run cache).value.1 =
        true ↔ ∃ sig, Signature.ofDer? der = some sig ∧
          accepts (spend.digest kind (Scope.normal kind)) sig.lowS key = true) ∧
    (∀ kind, spend.preimage kind (Scope.normal kind) = spend.preimage kind kind ↔
      kind ∈ Scope.normals) ∧
    (∀ signatures keys cache,
      (∀ data ∈ signatures, ∀ kind, data.getLast? = some kind → kind ∈ Scope.normals) →
      ((ecdsa.verifySegwit spend.tx spend.context signatures keys).run cache).value.1 =
        matchesInOrder (fun kind => spend.digest kind kind) signatures keys) := by
  have hmatches : ∀ signatures keys cache,
      ((ecdsa.verifySegwit spend.tx spend.context signatures keys).run cache).value.1 =
        matchesInOrder (fun kind => spend.digest kind (Scope.normal kind)) signatures keys :=
    fun signatures keys cache =>
      value_matchInOrder (fun kind cache => value_contextDigest? spend kind cache) signatures keys
        cache
  refine ⟨hmatches, ?_, ?_, ?_⟩
  · intro der kind key cache
    rw [hmatches, matchesInOrder, Signature.parse?_concat]
    cases Signature.ofDer? der with
    | none => simp
    | some sig =>
      cases haccepts : accepts (spend.digest kind (Scope.normal kind)) sig.lowS key <;>
        simp [keysAfter?, matchesInOrder, haccepts]
  · intro kind
    rw [spend.preimage_inj, Scope.normal_eq_self_iff]
  · intro signatures keys cache hnormal
    rw [hmatches]
    apply matchesInOrder_congr
    intro data hdata kind hkind
    rw [(Scope.normal_eq_self_iff kind).mpr (hnormal data hdata kind hkind)]

/-- A spend of one input that creates nothing. -/
def untyped : Bip143.Spend where
  tx := { version := 2, lockTime := 0, inputs := [⟨⟨Digest.zero, 0⟩, [], 0, []⟩], outputs := [] }
  index := 0
  signed := ⟨⟨Digest.zero, 0⟩, [], 0, []⟩
  isSigned := rfl
  scriptCode := [0x51]
  value := 0

theorem segwit_digest_terms_untyped :
    let signature := [0x30, 0x06, 0x02, 0x01, 0x01, 0x02, 0x01, 0x01, 0x01]
    ((ecdsa.verifySegwit untyped.tx untyped.context [signature] [[0x02]]).run
        DigestCache.empty).value.1 =
      matchesInOrder (fun kind => untyped.digest kind kind) [signature] [[0x02]] := by
  intro signature
  apply (segwit_digest_terms untyped).2.2.2
  intro data hdata kind hkind
  rw [List.mem_singleton.mp hdata] at hkind
  rw [← Option.some.inj hkind]
  decide

/-- Signatures are not checked against the digest that commits to their last byte as it
is, such as one with a bit that no rule reads. -/
theorem not_segwit_digest_of_last_byte :
    ¬ ∀ (spend : Bip143.Spend) (kind : UInt8) (cache : DigestCache spend.tx),
      ((contextDigest? spend.context kind).run cache).value.1 = some (spend.digest kind kind) := by
  intro hdigest
  have hsame := hdigest untyped 0xa2 DigestCache.empty
  rw [value_contextDigest?] at hsame
  have hother : untyped.digest 0xa2 (Scope.normal 0xa2) ≠ untyped.digest 0xa2 0xa2 := by
    rw [Bip143.Spend.digest, Bip143.Spend.digest, doubleSha256, doubleSha256]
    simp only [Sha256.hash_eq_mix]
    decide +kernel
  exact hother (Option.some.inj hsame)

end Verifier
end SpendCheck
