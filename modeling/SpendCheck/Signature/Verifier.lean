import SpendCheck.Curve.Ecdsa
import SpendCheck.Signature.Cache
import SpendCheck.Signature.Der
import SpendCheck.Signature.PublicKey
import SpendCheck.Trace.Traced

/-!
# Verifiers

A verifier decides, all or nothing, whether a list of signatures is good for a list
of keys in a context.  It has one method for each set of digest rules, and is asked by
the one for the rules of the context.  `Verifier.ecdsa` decides by the curve; any other
decision can take its place.
-/

namespace SpendCheck

/-- What a verifier remarks on while it decides. -/
inductive Remark where
  | notDer (signature : Bytes)
  | noDigest (regime : Regime) (error : NoSuchInput)
deriving DecidableEq, Repr

def Remark.message : Remark → String
  | .notDer signature => s!"signature {Hex.encode signature} is not a valid DER encoding"
  | .noDigest regime error => s!"{regime.name} sighash computation failed: {error.message}"

/-- A decision about a transaction may use and extend what is remembered of it. -/
abbrev Decision (tx : RawTx) := StateT (DigestCache tx) (Traced Remark)

/-- Leaves a remark. -/
def remark {tx : RawTx} (r : Remark) : Decision tx Unit := monadLift (Traced.note r)

structure Verifier where
  /-- Verifies signatures over digests from before witnesses. -/
  verifyLegacy : (tx : RawTx) → Context → (signatures keys : List Bytes) → Decision tx Bool
  /-- Verifies signatures over BIP-143 digests. -/
  verifySegwit : (tx : RawTx) → Context → (signatures keys : List Bytes) → Decision tx Bool

/-- The ways to ask a verifier. -/
inductive Method where
  | verifyLegacy
  | verifySegwit
deriving DecidableEq, Repr

/-- The method for contexts under the rules. -/
def Regime.method : Regime → Method
  | legacy => .verifyLegacy
  | segwit => .verifySegwit

/-- A question that was put to a verifier, the method by which it was, and its answer. -/
structure Call where
  skeleton : RawTx
  method : Method
  context : Context
  signatures : List Bytes
  keys : List Bytes
  accepted : Bool
deriving DecidableEq

namespace Verifier

def call (verifier : Verifier) : Method →
    (tx : RawTx) → Context → (signatures keys : List Bytes) → Decision tx Bool
  | .verifyLegacy => verifier.verifyLegacy
  | .verifySegwit => verifier.verifySegwit

/-- The decision of the method for the rules of the context. -/
def judge (verifier : Verifier) (tx : RawTx) (context : Context) (signatures keys : List Bytes) :
    Decision tx Bool :=
  verifier.call context.regime.method tx context signatures keys

/-- A verifier that looks neither at the transaction nor at what is remembered. -/
def ofPredicate (accepts : Context → (signatures keys : List Bytes) → Bool) : Verifier where
  verifyLegacy _ context signatures keys := pure (accepts context signatures keys)
  verifySegwit _ context signatures keys := pure (accepts context signatures keys)

/-- The keys behind the first one that is accepted. -/
def keysAfter? (accepts : Bytes → Bool) : List Bytes → Option (List Bytes)
  | [] => none
  | key :: keys => if accepts key then some keys else keysAfter? accepts keys

/-- Whether a signature over a digest is good for a written key.  A key that does
not parse is good for nothing. -/
def accepts (digest : Hash256) (sig : Signature) (key : Bytes) : Bool :=
  (PublicKey.parse? key).any (Ecdsa.verify digest sig)

/-- Matches every signature with a key, in order.  A key that has been passed over
is not tried again, so the keys matched stand in the order of the signatures. -/
def matchInOrder {tx : RawTx} (digest? : UInt8 → Decision tx (Option Hash256)) :
    (signatures keys : List Bytes) → Decision tx Bool
  | [], _ => pure true
  | data :: signatures, keys =>
    match Signature.parse? data with
    | none => do
      remark (.notDer data)
      return false
    | some (sig, kind) => do
      match ← digest? kind with
      | none => return false
      | some digest =>
        match keysAfter? (accepts digest sig) keys with
        | none => return false
        | some rest => matchInOrder digest? signatures rest

/-- The digest for a kind of signature, with a remark where there is none. -/
def contextDigest? {tx : RawTx} (context : Context) (kind : UInt8) :
    Decision tx (Option Hash256) := do
  match ← modifyGet (DigestCache.digest context kind) with
  | .ok digest => return some digest
  | .error error =>
    remark (.noDigest context.regime error)
    return none

/-- Decides by the curve.  The digests are those of the method that is asked, whatever rules
the context names. -/
def ecdsa : Verifier where
  verifyLegacy _ context := matchInOrder (contextDigest? { context with regime := .legacy })
  verifySegwit _ context := matchInOrder (contextDigest? { context with regime := .segwit })

end Verifier
end SpendCheck
