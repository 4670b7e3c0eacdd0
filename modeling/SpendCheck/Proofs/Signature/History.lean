import SpendCheck.Proofs.Signature.Check
import SpendCheck.Proofs.Spend.Template
import SpendCheck.Proofs.Trace.Agree

/-!
# Sessions without a history

What a session remembers saves work and decides nothing.  For a verifier whose answers
are a function of the question, a check comes to what `callFor` says, and that is told
from the transaction alone.  So the checks of a row come to what each of them comes to
in a session of its own, whichever of them fail.
-/

namespace SpendCheck

/-- What is decided is the same from whatever is remembered. -/
def Decision.HistoryFree {skeleton : RawTx} {α : Type} (x : Decision skeleton α) : Prop :=
  ∀ cache cache' : DigestCache skeleton, (x.run cache).value.1 = (x.run cache').value.1

namespace Decision

variable {skeleton : RawTx} {α β : Type}

theorem historyFree_pure (a : α) : HistoryFree (pure a : Decision skeleton α) := fun _ _ => rfl

theorem historyFree_remark (r : Remark) : HistoryFree (remark r : Decision skeleton Unit) :=
  fun _ _ => rfl

theorem HistoryFree.bind {x : Decision skeleton α} {f : α → Decision skeleton β}
    (hx : HistoryFree x) (hf : ∀ a, HistoryFree (f a)) : HistoryFree (x >>= f) := by
  intro cache cache'
  have hsame := hx cache cache'
  show ((f (x.run cache).value.1).run (x.run cache).value.2).value.1 =
    ((f (x.run cache').value.1).run (x.run cache').value.2).value.1
  rw [hsame]
  exact hf _ _ _

end Decision

namespace Verifier

/-- The answers are a function of what is asked: of the skeleton, the context with its
rules, the signatures and the keys. -/
def HistoryFree (verifier : Verifier) : Prop :=
  ∀ skeleton context signatures keys,
    Decision.HistoryFree (verifier.judge skeleton context signatures keys)

theorem judge_ofPredicate (accepts : Context → (signatures keys : List Bytes) → Bool)
    (skeleton : RawTx) (context : Context) (signatures keys : List Bytes) :
    (ofPredicate accepts).judge skeleton context signatures keys =
      pure (accepts context signatures keys) := by
  rw [judge]
  cases context.regime <;> rfl

theorem historyFree_ofPredicate (accepts : Context → (signatures keys : List Bytes) → Bool) :
    (ofPredicate accepts).HistoryFree := by
  intro skeleton context signatures keys
  rw [judge_ofPredicate]
  exact Decision.historyFree_pure _

theorem historyFree_contextDigest? {skeleton : RawTx} (context : Context) (kind : UInt8) :
    Decision.HistoryFree (contextDigest? context kind : Decision skeleton (Option Hash256)) := by
  have hdigest : Decision.HistoryFree
      (modifyGet (DigestCache.digest context kind) : Decision skeleton _) := by
    intro cache cache'
    show (DigestCache.digest context kind cache).1 = (DigestCache.digest context kind cache').1
    rw [DigestCache.digest_fst, DigestCache.digest_fst]
  refine hdigest.bind ?_
  intro digest
  cases digest with
  | ok digest => exact Decision.historyFree_pure _
  | error error => exact (Decision.historyFree_remark _).bind fun _ => Decision.historyFree_pure _

theorem historyFree_matchInOrder {skeleton : RawTx}
    {digest? : UInt8 → Decision skeleton (Option Hash256)}
    (hdigest : ∀ kind, Decision.HistoryFree (digest? kind)) (signatures keys : List Bytes) :
    Decision.HistoryFree (matchInOrder digest? signatures keys) := by
  induction signatures generalizing keys with
  | nil => exact Decision.historyFree_pure true
  | cons data signatures ih =>
    rw [matchInOrder]
    cases Signature.parse? data with
    | none => exact (Decision.historyFree_remark _).bind fun _ => Decision.historyFree_pure false
    | some parsed =>
      refine (hdigest parsed.2).bind ?_
      intro digest
      cases digest with
      | none => exact Decision.historyFree_pure false
      | some digest =>
        cases hkeys : keysAfter? (accepts digest parsed.1) keys with
        | none => simpa only [hkeys] using Decision.historyFree_pure false
        | some rest => simpa only [hkeys] using ih rest

theorem historyFree_ecdsa : ecdsa.HistoryFree := by
  intro skeleton context signatures keys
  rw [judge]
  cases context.regime <;>
    exact historyFree_matchInOrder (historyFree_contextDigest? _) signatures keys

end Verifier

namespace Session

variable {tx : Transaction}

open Exec

theorem outcome_checkSignatures (verifier : Verifier) (index : Nat) (signatures keys : List Bytes)
    (s : Session tx) :
    outcome (checkSignatures verifier index signatures keys) s =
      match Context.ofInput tx index with
      | .error e => { result := .error e, state := s, calls := [] }
      | .ok context =>
        match loaded s with
        | .error error => { result := .error (.txData error), state := s, calls := [] }
        | .ok shared =>
          { result := .ok (answer verifier shared context signatures keys).1
            state := some (answer verifier shared context signatures keys).2
            calls := [callOf verifier shared context signatures keys] } := by
  rw [checkSignatures, outcome_bind, outcome_liftExcept]
  cases Context.ofInput tx index with
  | error e => rfl
  | ok context =>
    simp only [Outcome.andThen, List.nil_append]
    rw [outcome_bind, outcome_load]
    cases loaded s with
    | error error => rfl
    | ok shared =>
      simp only [Outcome.andThen, List.nil_append]
      rw [outcome_bind, outcome_traced, value_ask, callsOf_ask]
      rfl

/-- The call that a check makes, or why it makes none, told from the transaction alone. -/
def callFor (verifier : Verifier) (tx : Transaction) (index : Nat)
    (signatures keys : List Bytes) : Except ContextError Call := do
  let context ← Context.ofInput tx index
  let skeleton ← tx.skeleton.mapError .txData
  let method := context.regime.method
  return { skeleton, method, context, signatures, keys,
           accepted := verifier.approves method skeleton context signatures keys }

theorem answer_of_historyFree {verifier : Verifier} (hfree : verifier.HistoryFree)
    (shared : Shared tx) (context : Context) (signatures keys : List Bytes) :
    (answer verifier shared context signatures keys).1 =
      verifier.approves context.regime.method shared.skeleton context signatures keys := by
  rw [← verifier.value_judge_empty]
  exact hfree shared.skeleton context signatures keys shared.cache DigestCache.empty

theorem outcome_checkSignatures_of_historyFree {verifier : Verifier}
    (hfree : verifier.HistoryFree) (index : Nat) (signatures keys : List Bytes)
    (s : Session tx) :
    let o := outcome (checkSignatures verifier index signatures keys) s
    let call := callFor verifier tx index signatures keys
    o.result = call.map Call.accepted ∧ o.calls = call.toOption.toList := by
  simp only [outcome_checkSignatures, callFor]
  cases Context.ofInput tx index with
  | error e => exact ⟨rfl, rfl⟩
  | ok context =>
    cases hloaded : loaded s with
    | error error =>
      rw [skeleton_of_loaded_error hloaded]
      exact ⟨rfl, rfl⟩
    | ok shared =>
      simp only [shared.isSkeleton, callOf, answer_of_historyFree hfree]
      exact ⟨rfl, rfl⟩

/-- A check is about what signatures of its input commit to, and about nothing else. -/
theorem agree_checkSignatures {tx₁ tx₂ : Transaction} {verifier : Verifier}
    (hfree : verifier.HistoryFree) {index : Nat}
    (hcontext : Context.ofInput tx₁ index = Context.ofInput tx₂ index)
    (hskeleton : tx₁.skeleton = tx₂.skeleton) (signatures keys : List Bytes) :
    Agree (checkSignatures verifier index signatures keys : Exec ContextError (Session tx₁) Bool)
      (checkSignatures verifier index signatures keys : Exec ContextError (Session tx₂) Bool) := by
  have hcall : callFor verifier tx₁ index signatures keys =
      callFor verifier tx₂ index signatures keys := by
    rw [callFor, callFor, hcontext, hskeleton]
  refine agree_of_outcome
    (outcome_checkSignatures_of_historyFree hfree index signatures keys) fun t => ?_
  rw [hcall]
  exact outcome_checkSignatures_of_historyFree hfree index signatures keys t

/-- A check that fails leaves the session as it was. -/
theorem state_of_fails_checkSignatures {verifier : Verifier} {index : Nat}
    {signatures keys : List Bytes} {s : Session tx} {e : ContextError}
    (h : Fails (checkSignatures verifier index signatures keys) s e) :
    (outcome (checkSignatures verifier index signatures keys) s).state = s := by
  rw [Fails, outcome_checkSignatures] at h
  rw [outcome_checkSignatures]
  cases hcontext : Context.ofInput tx index with
  | error e => rfl
  | ok context =>
    cases hloaded : loaded s with
    | error error => rfl
    | ok shared => simp [hcontext, hloaded] at h

/-! ## Rows of checks -/

/-- A check that a session can be asked for. -/
structure Request where
  verifier : Verifier
  index : Nat
  signatures : List Bytes
  keys : List Bytes

namespace Request

def check (q : Request) : Exec ContextError (Session tx) Bool :=
  checkSignatures q.verifier q.index q.signatures q.keys

/-- What the check comes to in a session of its own. -/
def alone (tx : Transaction) (q : Request) : Except ContextError Bool :=
  (q.check.run.run (fresh : Session tx)).value.1

end Request

/-- What the checks of a row come to in one session.  None of them ends the row, even
where it fails. -/
def results (requests : List Request) (s : Session tx) : List (Except ContextError Bool) :=
  ((requests.mapM fun q => q.check.run :
    StateT (Session tx) (Traced Event) (List (Except ContextError Bool))).run s).value.1

theorem results_cons (q : Request) (requests : List Request) (s : Session tx) :
    results (q :: requests) s =
      (outcome q.check s).result :: results requests (outcome q.check s).state := by
  rw [results, List.mapM_cons]
  rfl

theorem results_of_historyFree {requests : List Request}
    (hfree : ∀ q ∈ requests, q.verifier.HistoryFree) (s : Session tx) :
    results requests s = requests.map (Request.alone tx) := by
  induction requests generalizing s with
  | nil => rfl
  | cons q requests ih =>
    have hagree : Agree (q.check : Exec ContextError (Session tx) Bool) q.check :=
      agree_checkSignatures (hfree q List.mem_cons_self) rfl rfl q.signatures q.keys
    have hfirst : (outcome q.check s).result = q.alone tx := (hagree s fresh).1
    rw [results_cons, hfirst, ih fun q' hq' => hfree q' (List.mem_cons_of_mem q hq')]
    rfl

/-- Whatever has been asked in a session, each check comes to what it would come to in a
session of its own, and one that fails changes nothing for those behind it. -/
theorem results_eq_alone {requests : List Request}
    (hfree : ∀ q ∈ requests, q.verifier = Verifier.ecdsa ∨ q.verifier.HistoryFree) :
    (∀ s : Session tx, results requests s = requests.map (Request.alone tx)) ∧
    (∀ (s : Session tx) (q : Request) (e : ContextError), Fails q.check s e →
      ∀ later, results (q :: later) s = .error e :: results later s) := by
  have hfree : ∀ q ∈ requests, q.verifier.HistoryFree := by
    intro q hq
    obtain hecdsa | hfree := hfree q hq
    · rw [hecdsa]
      exact Verifier.historyFree_ecdsa
    · exact hfree
  constructor
  · intro s
    exact results_of_historyFree hfree s
  · intro s q e hfails later
    have hstate : (outcome q.check s).state = s := state_of_fails_checkSignatures hfails
    rw [results_cons, hfails, hstate]

/-- Two inputs, one under either set of digest rules. -/
def twoRegimes : Transaction := .ofInputs [
  Input.spending .p2pkh "", { Input.spending .v0P2wpkh "" with witness := some [] }]

/-- An input that is not there, a signature that is none, and two lists without any. -/
def mixedRow : List Request := [⟨.ecdsa, 2, [], []⟩, ⟨.ecdsa, 1, [[]], []⟩, ⟨.ecdsa, 0, [], []⟩,
  ⟨.ofPredicate fun context _ _ => context.regime = .segwit, 1, [], []⟩]

theorem results_eq_alone_mixedRow :
    results mixedRow (fresh : Session twoRegimes) =
      [.error (.txData (.noInput 2)), .ok false, .ok true, .ok true] ∧
    results mixedRow (fresh : Session twoRegimes) =
      .error (.txData (.noInput 2)) :: results mixedRow.tail (fresh : Session twoRegimes) := by
  have hfree : ∀ q ∈ mixedRow, q.verifier = Verifier.ecdsa ∨ q.verifier.HistoryFree := by
    simp [mixedRow, Verifier.historyFree_ofPredicate]
  have hfails : Fails (Request.check ⟨.ecdsa, 2, [], []⟩) (fresh : Session twoRegimes)
      (.txData (.noInput 2)) := by
    rw [Fails, Request.check, outcome_checkSignatures]
    rfl
  obtain ⟨hresults, hfailed⟩ := @results_eq_alone twoRegimes mixedRow hfree
  constructor
  · rw [hresults fresh]
    decide +kernel
  · exact hfailed fresh _ _ hfails mixedRow.tail

end Session
end SpendCheck
