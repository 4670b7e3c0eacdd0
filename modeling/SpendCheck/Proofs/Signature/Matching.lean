import SpendCheck.Proofs.Signature.Bip143

/-!
# Matching signatures with keys

Signatures are matched in one pass over the keys, and each takes the first key that it is
good for.  No assignment of keys in the order of the signatures is missed so: wherever some
assignment gives a signature a later key, the key that the pass takes would have done as
well, and it leaves more keys to the signatures that follow.
-/

namespace SpendCheck

section Lists

variable {α β : Type} {R : α → β → Prop}

theorem exists_of_sublistForall₂_cons {a : α} {as : List α} {bs : List β}
    (h : List.SublistForall₂ R (a :: as) bs) : ∃ b, R a b := by
  obtain ⟨matched, hmatched, -⟩ := List.sublistForall₂_iff.mp h
  cases hmatched with
  | cons hfirst _ => exact ⟨_, hfirst⟩

/-- An assignment of all items serves all items but the first. -/
theorem sublistForall₂_of_cons {a : α} {as : List α} {bs : List β}
    (h : List.SublistForall₂ R (a :: as) bs) : List.SublistForall₂ R as bs := by
  obtain ⟨matched, hmatched, hsub⟩ := List.sublistForall₂_iff.mp h
  cases hmatched with
  | cons _ hrest =>
    exact List.sublistForall₂_iff.mpr ⟨_, hrest, (List.sublist_cons_self _ _).trans hsub⟩

/-- An assignment in order, as a map between places. -/
theorem sublistForall₂_iff_exists_strictMono {as : List α} {bs : List β} :
    List.SublistForall₂ R as bs ↔
      ∃ f : Fin as.length → Fin bs.length, StrictMono f ∧ ∀ i, R as[i] bs[f i] := by
  rw [List.sublistForall₂_iff]
  constructor
  · intro h
    obtain ⟨matched, hmatched, hsub⟩ := h
    obtain ⟨f, hf⟩ := List.sublist_iff_exists_fin_orderEmbedding_get_eq.mp hsub
    have hlength : as.length = matched.length := hmatched.length_eq
    refine ⟨fun i => f (i.cast hlength), f.strictMono.comp (Fin.cast_strictMono hlength), ?_⟩
    intro i
    have hvalue : matched.get (i.cast hlength) = bs.get (f (i.cast hlength)) := hf _
    have hgood : R (as.get i) (matched.get (i.cast hlength)) := hmatched.get _ _
    rw [hvalue] at hgood
    exact hgood
  · intro h
    obtain ⟨f, hmono, hgood⟩ := h
    let matched := List.ofFn fun i => bs[f i]
    have hlength : as.length = matched.length := by simp [matched]
    refine ⟨matched, List.forall₂_iff_get.mpr ⟨hlength, ?_⟩,
      List.sublist_iff_exists_fin_orderEmbedding_get_eq.mpr ?_⟩
    · intro i hi _
      simpa [matched] using hgood ⟨i, hi⟩
    · refine ⟨.ofStrictMono (fun i => f (i.cast hlength.symm))
        (hmono.comp (Fin.cast_strictMono hlength.symm)), ?_⟩
      intro i
      exact List.get_ofFn _ i

end Lists

theorem Signature.lowS_eq (sig : Signature) :
    sig.lowS = ⟨sig.r, if Secp256k1.order / 2 < sig.s.val then -sig.s else sig.s⟩ := by
  simp only [lowS, isHigh, decide_eq_true_eq]
  split <;> rfl

namespace Verifier

/-- Whether written data is a signature, over the message for its kind, that is good for a
written key.  The last byte of the data tells the kind and all others are the DER form.  A
signature is tried with the smaller one of `s` and its negation. -/
def GoodFor (message : UInt8 → Option Hash256) (data key : Bytes) : Prop :=
  ∃ der kind sig digest point, data = der ++ [kind] ∧ Signature.ofDer? der = some sig ∧
    message kind = some digest ∧ PublicKey.parse? key = some point ∧
    Ecdsa.verify digest
      ⟨sig.r, if Secp256k1.order / 2 < sig.s.val then -sig.s else sig.s⟩ point = true

/-- Whether each signature can be given a key that it is good for, with the keys in the order
of the signatures. -/
def Assignable (message : UInt8 → Option Hash256) (signatures keys : List Bytes) : Prop :=
  ∃ f : Fin signatures.length → Fin keys.length, StrictMono f ∧
    ∀ i, GoodFor message signatures[i] keys[f i]

theorem accepts_iff {digest : Hash256} {sig : Signature} {key : Bytes} :
    accepts digest sig key = true ↔
      ∃ point, PublicKey.parse? key = some point ∧ Ecdsa.verify digest sig point = true := by
  rw [accepts, Option.any_eq_true]

theorem goodFor_iff {message : UInt8 → Option Hash256} {data key : Bytes} :
    GoodFor message data key ↔ ∃ sig kind digest, Signature.parse? data = some (sig, kind) ∧
      message kind = some digest ∧ accepts digest sig key = true := by
  simp only [GoodFor, ← Signature.lowS_eq]
  constructor
  · intro h
    obtain ⟨der, kind, sig, digest, point, hdata, hder, hmessage, hkey, hverify⟩ := h
    refine ⟨sig.lowS, kind, digest, ?_, hmessage, accepts_iff.mpr ⟨point, hkey, hverify⟩⟩
    rw [hdata, Signature.parse?_concat, hder]
    rfl
  · intro h
    obtain ⟨lowSig, kind, digest, hparse, hmessage, haccepts⟩ := h
    obtain ⟨point, hkey, hverify⟩ := accepts_iff.mp haccepts
    obtain ⟨der, hdata⟩ := List.getLast?_eq_some_iff.mp (Signature.getLast?_of_parse? hparse)
    rw [hdata, Signature.parse?_concat] at hparse
    obtain ⟨sig, hder, hlow⟩ := Option.map_eq_some_iff.mp hparse
    obtain rfl : sig.lowS = lowSig := (Prod.mk.inj hlow).1
    exact ⟨der, kind, sig, digest, point, hdata, hder, hmessage, hkey, hverify⟩

theorem goodFor_iff_accepts {message : UInt8 → Option Hash256} {data key : Bytes}
    {sig : Signature} {kind : UInt8} {digest : Hash256}
    (hparse : Signature.parse? data = some (sig, kind)) (hmessage : message kind = some digest) :
    GoodFor message data key ↔ accepts digest sig key = true := by
  rw [goodFor_iff]
  constructor
  · intro h
    obtain ⟨_, _, _, hparse', hmessage', haccepts⟩ := h
    obtain ⟨rfl, rfl⟩ := Prod.mk.inj (Option.some.inj (hparse.symm.trans hparse'))
    rwa [Option.some.inj (hmessage.symm.trans hmessage')]
  · intro haccepts
    exact ⟨sig, kind, digest, hparse, hmessage, haccepts⟩

/-- It is enough to try the first key that the first item accepts. -/
theorem sublistForall₂_cons_iff {R : Bytes → Bytes → Prop} {data : Bytes} {accepts : Bytes → Bool}
    (haccepts : ∀ key, R data key ↔ accepts key = true) (signatures keys : List Bytes) :
    List.SublistForall₂ R (data :: signatures) keys ↔
      ∃ rest, keysAfter? accepts keys = some rest ∧ List.SublistForall₂ R signatures rest := by
  induction keys with
  | nil =>
    constructor
    · intro h
      cases h
    · intro h
      obtain ⟨_, hnone, -⟩ := h
      cases hnone
  | cons key keys ih =>
    rw [keysAfter?]
    by_cases hkey : accepts key = true
    · rw [if_pos hkey]
      constructor
      · intro h
        refine ⟨keys, rfl, ?_⟩
        cases h with
        | cons _ hrest => exact hrest
        | cons_right hlater => exact sublistForall₂_of_cons hlater
      · intro h
        obtain ⟨_, hrest, hmatched⟩ := h
        rw [← Option.some.inj hrest] at hmatched
        exact .cons ((haccepts key).mpr hkey) hmatched
    · rw [if_neg hkey, ← ih]
      constructor
      · intro h
        cases h with
        | cons hgood _ => exact absurd ((haccepts key).mp hgood) hkey
        | cons_right hlater => exact hlater
      · intro hlater
        exact .cons_right hlater

/-- The pass finds an assignment wherever there is one, however the digests are looked up. -/
theorem value_matchInOrder_eq_true {tx : RawTx} {message : UInt8 → Option Hash256}
    {digest? : UInt8 → Decision tx (Option Hash256)}
    (hdigest : ∀ kind cache, ((digest? kind).run cache).value.1 = message kind)
    (signatures keys : List Bytes) (cache : DigestCache tx) :
    ((matchInOrder digest? signatures keys).run cache).value.1 = true ↔
      List.SublistForall₂ (GoodFor message) signatures keys := by
  induction signatures generalizing keys cache with
  | nil => exact iff_of_true rfl .nil
  | cons data signatures ih =>
    rw [matchInOrder]
    cases hparse : Signature.parse? data with
    | none =>
      refine iff_of_false Bool.false_ne_true ?_
      intro h
      obtain ⟨_, hgood⟩ := exists_of_sublistForall₂_cons h
      obtain ⟨_, _, _, hsome, -⟩ := goodFor_iff.mp hgood
      simp [hparse] at hsome
    | some parsed =>
      obtain ⟨sig, kind⟩ := parsed
      simp only [StateT.run_bind, Traced.value_bind, hdigest]
      cases hmessage : message kind with
      | none =>
        refine iff_of_false Bool.false_ne_true ?_
        intro h
        obtain ⟨_, hgood⟩ := exists_of_sublistForall₂_cons h
        obtain ⟨_, _, _, hsome, hdigest', -⟩ := goodFor_iff.mp hgood
        obtain ⟨-, rfl⟩ := Prod.mk.inj (Option.some.inj (hparse.symm.trans hsome))
        simp [hmessage] at hdigest'
      | some digest =>
        rw [sublistForall₂_cons_iff fun key => goodFor_iff_accepts hparse hmessage]
        cases hkeys : keysAfter? (accepts digest sig) keys with
        | none => simp [hkeys]
        | some rest => simpa [hkeys] using ih rest _

theorem value_contextDigest {tx : RawTx} (context : Context) (kind : UInt8)
    (cache : DigestCache tx) : ((contextDigest? context kind).run cache).value.1 =
      (Digest.ofContext tx context kind).toOption := by
  have hlookup : ((modifyGet (DigestCache.digest context kind) :
      Decision tx (Except NoSuchInput Hash256)).run cache).value =
        (Digest.ofContext tx context kind, (DigestCache.digest context kind cache).2) := by
    rw [← DigestCache.digest_fst context kind cache]
    rfl
  rw [contextDigest?, StateT.run_bind, Traced.value_bind, hlookup]
  cases Digest.ofContext tx context kind <;> rfl

/-- Signatures are accepted just where keys can be assigned to them in order, whatever the
messages for the kinds of signatures are, and in particular where these are the digests that
either method takes. -/
theorem matchInOrder_iff_assignable (signatures keys : List Bytes) :
    (∀ (message : UInt8 → Option Hash256) (tx : RawTx) (cache : DigestCache tx),
      ((matchInOrder (fun kind => pure (message kind)) signatures keys).run cache).value.1 = true ↔
        Assignable message signatures keys) ∧
    (∀ (tx : RawTx) (context : Context) (cache : DigestCache tx),
      ((ecdsa.verifyLegacy tx context signatures keys).run cache).value.1 = true ↔
        Assignable (fun kind =>
          (Digest.legacy tx context.inputIndex context.scriptCode kind).toOption)
          signatures keys) ∧
    (∀ (tx : RawTx) (context : Context) (cache : DigestCache tx),
      ((ecdsa.verifySegwit tx context signatures keys).run cache).value.1 = true ↔
        Assignable (fun kind => (Digest.segwit tx tx.commitments context.inputIndex
          context.scriptCode context.value kind).toOption) signatures keys) := by
  refine ⟨?_, ?_, ?_⟩
  · intro message tx cache
    rw [Assignable, ← sublistForall₂_iff_exists_strictMono]
    exact value_matchInOrder_eq_true (fun _ _ => rfl) signatures keys cache
  · intro tx context cache
    rw [Assignable, ← sublistForall₂_iff_exists_strictMono]
    exact value_matchInOrder_eq_true (value_contextDigest { context with regime := .legacy })
      signatures keys cache
  · intro tx context cache
    rw [Assignable, ← sublistForall₂_iff_exists_strictMono]
    exact value_matchInOrder_eq_true (value_contextDigest { context with regime := .segwit })
      signatures keys cache

end Verifier
end SpendCheck
