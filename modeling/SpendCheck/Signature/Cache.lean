import SpendCheck.Signature.Digest

/-!
# Remembered commitments

The hashes that all BIP-143 digests of a transaction share are worked out when
they are first asked for.  The type says what is remembered, so that no history
of questions can change an answer.
-/

namespace SpendCheck

abbrev DigestCache (tx : RawTx) := Option { c : Commitments // c = tx.commitments }

namespace DigestCache

variable {tx : RawTx}

def empty : DigestCache tx := none

/-- The commitments, and the cache that remembers them. -/
def commitments (cache : DigestCache tx) : Commitments × DigestCache tx :=
  match cache with
  | some ⟨c, h⟩ => (c, some ⟨c, h⟩)
  | none =>
    let c := tx.commitments
    (c, some ⟨c, rfl⟩)

@[simp] theorem commitments_fst (cache : DigestCache tx) :
    (commitments cache).1 = tx.commitments := by
  match cache with
  | some ⟨_, h⟩ => exact h
  | none => rfl

/-- The digest of a context.  Only the newer rules ask for the commitments. -/
def digest (context : Context) (kind : UInt8) (cache : DigestCache tx) :
    Except NoSuchInput Hash256 × DigestCache tx :=
  match context.regime with
  | .legacy => (Digest.legacy tx context.inputIndex context.scriptCode kind, cache)
  | .segwit =>
    let (shared, cache) := commitments cache
    (Digest.segwit tx shared context.inputIndex context.scriptCode context.value kind, cache)

@[simp] theorem digest_fst (context : Context) (kind : UInt8) (cache : DigestCache tx) :
    (digest context kind cache).1 = Digest.ofContext tx context kind := by
  unfold digest Digest.ofContext
  split <;> simp_all

end DigestCache
end SpendCheck
