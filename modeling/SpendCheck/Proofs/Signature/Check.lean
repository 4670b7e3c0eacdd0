import SpendCheck.Proofs.Signature.Context
import SpendCheck.Proofs.Trace.Outcome
import SpendCheck.Signature.Session

/-!
# What a signature check comes to

A check that succeeds has a context, has made out what is shared, and has put
exactly one question to the verifier.  `yields_checkSignatures` says so in both
directions.
-/

namespace SpendCheck

/-- What the verifier says to a question by one of its methods when nothing is remembered yet. -/
def Verifier.approves (verifier : Verifier) (method : Method) (skeleton : RawTx)
    (context : Context) (signatures keys : List Bytes) : Bool :=
  let decision :=
    match method with
    | .verifyLegacy => verifier.verifyLegacy skeleton context signatures keys
    | .verifySegwit => verifier.verifySegwit skeleton context signatures keys
  (decision.run DigestCache.empty).value.1

/-- A question is put by the method for the rules of its context. -/
theorem Verifier.value_judge_empty (verifier : Verifier) (skeleton : RawTx) (context : Context)
    (signatures keys : List Bytes) :
    ((verifier.judge skeleton context signatures keys).run DigestCache.empty).value.1 =
      verifier.approves context.regime.method skeleton context signatures keys := by
  rw [judge]
  cases context.regime <;> rfl

namespace Session

variable {tx : Transaction}

open Exec

/-- What is shared in a session, made out if it is not yet there. -/
def loaded : Session tx → Except DataError (Shared tx)
  | some shared => .ok shared
  | none =>
    match h : tx.skeleton with
    | .error error => .error error
    | .ok skeleton => .ok { skeleton, isSkeleton := h, cache := DigestCache.empty }

theorem loaded_none_of_ok {skeleton : RawTx} (h : tx.skeleton = .ok skeleton) :
    loaded (none : Session tx) =
      .ok { skeleton, isSkeleton := h, cache := DigestCache.empty } := by
  simp only [loaded]
  split
  · next error he => simp [h] at he
  · next other ho =>
    obtain rfl : skeleton = other := by simpa [h] using ho
    rfl

theorem loaded_none_of_error {error : DataError} (h : tx.skeleton = .error error) :
    loaded (none : Session tx) = .error error := by
  simp only [loaded]
  split
  · next other ho =>
    obtain rfl : error = other := by simpa [h] using ho
    rfl
  · next skeleton hs => simp [h] at hs

theorem skeleton_of_loaded_error {s : Session tx} {error : DataError}
    (h : loaded s = .error error) : tx.skeleton = .error error := by
  cases s with
  | some shared => simp [loaded] at h
  | none =>
    cases hskeleton : tx.skeleton with
    | ok skeleton => simp [loaded_none_of_ok hskeleton] at h
    | error e =>
      rw [loaded_none_of_error hskeleton] at h
      rw [Except.error.inj h]

theorem outcome_load (s : Session tx) :
    outcome load s =
      match loaded s with
      | .ok shared => { result := .ok shared, state := some shared, calls := [] }
      | .error error => { result := .error (.txData error), state := s, calls := [] } := by
  cases s with
  | some shared => rfl
  | none =>
    show outcome (get >>= _) none = _
    rw [outcome_bind, outcome_get]
    simp only [Outcome.andThen, List.nil_append]
    split
    · next error h => rw [loaded_none_of_error h, outcome_throw]
    · next skeleton h => rw [loaded_none_of_ok h]; rfl

theorem yields_load {s s' : Session tx} {shared : Shared tx} {calls : List Call} :
    Yields load s shared s' calls ↔ loaded s = .ok shared ∧ s' = some shared ∧ calls = [] := by
  rw [Yields, outcome_load]
  cases loaded s with
  | error error => simp
  | ok there =>
    simp only [Outcome.mk.injEq, Except.ok.injEq]
    constructor
    · intro h
      rcases h with ⟨rfl, rfl, rfl⟩
      exact ⟨rfl, rfl, rfl⟩
    · intro h
      rcases h with ⟨rfl, rfl, rfl⟩
      exact ⟨rfl, rfl, rfl⟩

theorem fails_load {s : Session tx} {e : ContextError} :
    Fails load s e ↔ ∃ error, loaded s = .error error ∧ e = .txData error := by
  rw [Fails, outcome_load]
  cases loaded s with
  | error error => simp [eq_comm]
  | ok there => simp

/-- The verifier's answer to a question, and what the session shares afterwards. -/
def answer (verifier : Verifier) (shared : Shared tx) (context : Context)
    (signatures keys : List Bytes) : Bool × Shared tx :=
  let decision := ((verifier.judge shared.skeleton context signatures keys).run shared.cache).value
  (decision.1, { shared with cache := decision.2 })

theorem answer_of_empty (verifier : Verifier) {shared : Shared tx}
    (hempty : shared.cache = DigestCache.empty) (context : Context)
    (signatures keys : List Bytes) :
    (answer verifier shared context signatures keys).1 =
      verifier.approves context.regime.method shared.skeleton context signatures keys := by
  rw [answer, hempty, verifier.value_judge_empty]

def callOf (verifier : Verifier) (shared : Shared tx) (context : Context)
    (signatures keys : List Bytes) : Call where
  skeleton := shared.skeleton
  method := context.regime.method
  context := context
  signatures := signatures
  keys := keys
  accepted := (answer verifier shared context signatures keys).1

theorem callsOf_remarks (remarks : List Remark) : callsOf (remarks.map Event.remark) = [] := by
  rw [callsOf, List.filterMap_map]
  exact List.filterMap_eq_nil_iff.mpr fun _ _ => rfl

theorem value_ask (verifier : Verifier) (shared : Shared tx) (context : Context)
    (signatures keys : List Bytes) :
    (ask verifier shared context signatures keys).value =
      answer verifier shared context signatures keys := rfl

theorem callsOf_ask (verifier : Verifier) (shared : Shared tx) (context : Context)
    (signatures keys : List Bytes) :
    callsOf (ask verifier shared context signatures keys).trace =
      [callOf verifier shared context signatures keys] := by
  show callsOf (List.map Event.remark _ ++ ([_] ++ [])) = _
  rw [callsOf_append, callsOf_remarks]
  rfl

theorem yields_checkSignatures {verifier : Verifier} {index : Nat} {signatures keys : List Bytes}
    {s s' : Session tx} {accepted : Bool} {calls : List Call} :
    Yields (checkSignatures verifier index signatures keys) s accepted s' calls ↔
      ∃ context shared, Context.ofInput tx index = .ok context ∧ loaded s = .ok shared ∧
        accepted = (answer verifier shared context signatures keys).1 ∧
        s' = some (answer verifier shared context signatures keys).2 ∧
        calls = [callOf verifier shared context signatures keys] := by
  simp only [checkSignatures, yields_bind, yields_liftExcept, yields_load, yields_traced,
    yields_set, yields_pure, value_ask, callsOf_ask]
  constructor
  · intro h
    rcases h with ⟨context, _, _, _, ⟨hcontext, rfl, rfl⟩, ⟨shared, _, _, _, ⟨hshared, rfl, rfl⟩,
      ⟨_, _, _, _, ⟨rfl, rfl, rfl⟩, ⟨_, _, _, _, ⟨rfl, rfl⟩, ⟨rfl, rfl, rfl⟩, rfl⟩, rfl⟩, rfl⟩, rfl⟩
    exact ⟨context, shared, hcontext, hshared, rfl, rfl, rfl⟩
  · intro h
    rcases h with ⟨context, shared, hcontext, hshared, rfl, rfl, rfl⟩
    refine ⟨context, _, _, _, ⟨hcontext, rfl, rfl⟩, ⟨shared, _, _, _, ⟨hshared, rfl, rfl⟩,
      ⟨_, _, _, _, ⟨rfl, rfl, rfl⟩, ?_, rfl⟩, rfl⟩, rfl⟩
    exact ⟨⟨⟩, _, _, _, ⟨rfl, rfl⟩, ⟨rfl, rfl, rfl⟩, rfl⟩

/-- The first check of a session gets the answer of a verifier that remembers nothing. -/
theorem yields_checkSignatures_fresh {verifier : Verifier} {index : Nat}
    {signatures keys : List Bytes} {context : Context} {skeleton : RawTx} {accepted : Bool}
    {calls : List Call} (hcontext : Context.ofInput tx index = .ok context)
    (hskeleton : tx.skeleton = .ok skeleton) :
    (∃ s', Yields (checkSignatures verifier index signatures keys) (fresh : Session tx) accepted
        s' calls) ↔
      accepted = verifier.approves context.regime.method skeleton context signatures keys ∧
        calls = [⟨skeleton, context.regime.method, context, signatures, keys, accepted⟩] := by
  simp only [yields_checkSignatures, hcontext, Except.ok.injEq, fresh,
    loaded_none_of_ok hskeleton]
  constructor
  · intro h
    obtain ⟨s', _, shared, rfl, rfl, haccepted, -, hcalls⟩ := h
    rw [answer_of_empty verifier rfl] at haccepted
    refine ⟨haccepted, ?_⟩
    rw [hcalls, callOf, answer_of_empty verifier rfl, haccepted]
  · intro h
    obtain ⟨rfl, rfl⟩ := h
    refine ⟨_, context, _, rfl, rfl, ?_, rfl, ?_⟩
    · rw [answer_of_empty verifier rfl]
    · rw [callOf, answer_of_empty verifier rfl]

end Session
end SpendCheck
