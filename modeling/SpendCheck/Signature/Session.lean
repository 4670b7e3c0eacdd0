import SpendCheck.Trace.Event

/-!
# Signature checks of one transaction

All signature checks of a transaction share its skeleton and what the verifier
remembers of it.  Both are worked out when the first check asks for them.  The
context of an input is worked out anew for every check, and first, so that an input
without one leaves everything as it was.
-/

namespace SpendCheck

structure Shared (tx : Transaction) where
  skeleton : RawTx
  isSkeleton : tx.skeleton = .ok skeleton
  cache : DigestCache skeleton

/-- Nothing, until the first check has made out the skeleton. -/
abbrev Session (tx : Transaction) := Option (Shared tx)

namespace Session

variable {tx : Transaction}

def fresh : Session tx := none

/-- What is shared, made out if it is not yet there. -/
def load : Exec ContextError (Session tx) (Shared tx) := do
  match ← get with
  | some shared => return shared
  | none =>
    match h : tx.skeleton with
    | .error error => throw (.txData error)
    | .ok skeleton =>
      let shared : Shared tx := { skeleton, isSkeleton := h, cache := DigestCache.empty }
      set (some shared)
      return shared

/-- Puts a question to a verifier, by the method for the rules of the context, and records it
with its answer. -/
def ask (verifier : Verifier) (shared : Shared tx) (context : Context)
    (signatures keys : List Bytes) : Traced Event (Bool × Shared tx) := do
  let decision := (verifier.judge shared.skeleton context signatures keys).run shared.cache
  let (accepted, cache) ← decision.mapTrace Event.remark
  Traced.note (.call {
    skeleton := shared.skeleton, method := context.regime.method, context, signatures, keys,
    accepted })
  return (accepted, { shared with cache })

/-- Checks signatures of an input against keys, under the rules of the input. -/
def checkSignatures (verifier : Verifier) (index : Nat) (signatures keys : List Bytes) :
    Exec ContextError (Session tx) Bool := do
  let context ← liftExcept (Context.ofInput tx index)
  let shared ← load
  let (accepted, shared) ← (ask verifier shared context signatures keys : Traced Event _)
  set (some shared)
  return accepted

end Session
end SpendCheck
