import Mathlib
import SpendCheck.Trace.Event

/-!
# Outcomes

A computation over a state, with errors and a trace, comes to three things: its
result, the state it leaves, and the verifier calls on its trace.  Log records are
left out, since no verdict depends on them.  `outcome_bind` says how the three
combine, and `yields_bind` is its successful case, which is what symbolic execution
of a script needs at every step.
-/

namespace SpendCheck

section Except

variable {ε ε' α β : Type}

theorem pure_eq_ok {a b : α} : (pure a : Except ε α) = .ok b ↔ a = b :=
  Except.ok.injEq a b ▸ Iff.rfl

@[simp] theorem pure_except (a : α) : (pure a : Except ε α) = .ok a := rfl

@[simp] theorem ok_bind {a : α} {f : α → Except ε β} :
    (Except.ok a : Except ε α) >>= f = f a := rfl

@[simp] theorem error_bind {e : ε} {f : α → Except ε β} :
    (Except.error e : Except ε α) >>= f = .error e := rfl

theorem bind_eq_ok {x : Except ε α} {f : α → Except ε β} {b : β} :
    x >>= f = .ok b ↔ ∃ a, x = .ok a ∧ f a = .ok b := by
  cases x <;> simp [bind, Except.bind]

theorem pure_ne_error {a : α} {e : ε} : (pure a : Except ε α) ≠ .error e := nofun

theorem bind_eq_error {x : Except ε α} {f : α → Except ε β} {e : ε} :
    x >>= f = .error e ↔ x = .error e ∨ ∃ a, x = .ok a ∧ f a = .error e := by
  cases x <;> simp [bind, Except.bind]

/-- A success is the same whatever failures are turned into. -/
theorem mapError_eq_ok {f : ε → ε'} {x : Except ε α} {a : α} :
    x.mapError f = .ok a ↔ x = .ok a := by
  cases x <;> simp [Except.mapError]

theorem map_eq_ok {f : α → β} {x : Except ε α} {b : β} :
    x.map f = .ok b ↔ ∃ a, x = .ok a ∧ f a = b := by
  cases x <;> simp [Except.map]

end Except

namespace Event

theorem call?_step (input number : Nat) (opcode : Opcode) (height : Nat) :
    (step input number opcode height).call? = none := rfl

theorem call?_checked (input : Nat) (accepted : Bool) (signatures keys : Nat) :
    (checked input accepted signatures keys).call? = none := rfl

end Event

structure Outcome (ε σ α : Type) where
  result : Except ε α
  state : σ
  calls : List Call

namespace Outcome

variable {ε σ α β : Type}

/-- Goes on from a success; a failure stays as it is. -/
def andThen (o : Outcome ε σ α) (next : α → σ → Outcome ε σ β) : Outcome ε σ β :=
  match o.result with
  | .ok a =>
    let rest := next a o.state
    { rest with calls := o.calls ++ rest.calls }
  | .error e => { result := .error e, state := o.state, calls := o.calls }

/-- The outcome of what comes after these calls. -/
def after (calls : List Call) (o : Outcome ε σ α) : Outcome ε σ α :=
  { o with calls := calls ++ o.calls }

def map (f : α → β) (o : Outcome ε σ α) : Outcome ε σ β :=
  { o with result := o.result.map f }

theorem andThen_map {γ : Type} (f : α → β) (o : Outcome ε σ α) (next : β → σ → Outcome ε σ γ) :
    (o.map f).andThen next = o.andThen fun a => next (f a) := by
  obtain ⟨result, state, calls⟩ := o
  cases result <;> rfl

end Outcome

namespace Exec

variable {ε ε' σ α β : Type}

def outcome (x : Exec ε σ α) (s : σ) : Outcome ε σ α :=
  let done := x.run.run s
  { result := done.value.1, state := done.value.2, calls := callsOf done.trace }

theorem outcome_pure (a : α) (s : σ) :
    outcome (pure a : Exec ε σ α) s = { result := .ok a, state := s, calls := [] } := rfl

theorem outcome_throw (e : ε) (s : σ) :
    outcome (throw e : Exec ε σ α) s = { result := .error e, state := s, calls := [] } := rfl

theorem outcome_liftExcept (x : Except ε α) (s : σ) :
    outcome (liftExcept x : Exec ε σ α) s = { result := x, state := s, calls := [] } := by
  cases x <;> rfl

theorem outcome_traced (x : Traced Event α) (s : σ) :
    outcome (x : Exec ε σ α) s =
      { result := .ok x.value, state := s, calls := callsOf x.trace } := by
  show Outcome.mk (.ok x.value) s (callsOf ((x.trace ++ []) ++ [])) = _
  rw [List.append_nil, List.append_nil]

theorem outcome_get (s : σ) :
    outcome (get : Exec ε σ σ) s = { result := .ok s, state := s, calls := [] } := rfl

theorem outcome_set (s' s : σ) :
    outcome (set s' : Exec ε σ PUnit) s = { result := .ok ⟨⟩, state := s', calls := [] } := rfl

theorem outcome_adapt (f : ε → ε') (x : Exec ε σ α) (s : σ) :
    outcome (ExceptT.adapt f x) s =
      { outcome x s with result := (outcome x s).result.mapError f } := by
  show Outcome.mk _ _ (callsOf (_ ++ [])) = _
  rw [List.append_nil]
  rfl

/-- Calls of a chain stand in the order in which its parts run. -/
theorem outcome_bind (x : Exec ε σ α) (f : α → Exec ε σ β) (s : σ) :
    outcome (x >>= f) s = (outcome x s).andThen fun a s' => outcome (f a) s' := by
  have run_bind : (x >>= f).run.run s = x.run.run s >>= fun done =>
      match done with
      | (.ok a, s') => (f a).run.run s'
      | (.error e, s') => pure (.error e, s') := by
    simp only [ExceptT.run_bind, StateT.run_bind]
    congr 1
    funext done
    obtain ⟨result, s'⟩ := done
    cases result <;> rfl
  simp only [outcome, run_bind, Traced.value_bind, Traced.trace_bind, callsOf_append]
  obtain ⟨⟨result, s'⟩, trace⟩ := x.run.run s
  cases result with
  | ok a => rfl
  | error e =>
    show Outcome.mk (.error e) s' (callsOf trace ++ []) = _
    rw [List.append_nil]
    rfl

/-- From `s` the computation comes to `a`, leaves `s'`, and puts `calls` to the
verifier. -/
def Yields (x : Exec ε σ α) (s : σ) (a : α) (s' : σ) (calls : List Call) : Prop :=
  outcome x s = { result := .ok a, state := s', calls }

theorem yields_of_outcome {x : Exec ε σ α} {s s₁ : σ} {r : Except ε α} {c₁ : List Call}
    (h : outcome x s = { result := r, state := s₁, calls := c₁ }) {a : α} {s' : σ}
    {calls : List Call} :
    Yields x s a s' calls ↔ r = .ok a ∧ s' = s₁ ∧ calls = c₁ := by
  rw [Yields, h, Outcome.mk.injEq]
  exact and_congr_right fun _ => and_congr eq_comm eq_comm

theorem yields_of_result {x : Exec ε σ α} {s : σ} {a : α} (h : (outcome x s).result = .ok a) :
    Yields x s a (outcome x s).state (outcome x s).calls := by
  rw [Yields, ← h]

theorem yields_pure {a b : α} {s s' : σ} {calls : List Call} :
    Yields (pure a : Exec ε σ α) s b s' calls ↔ b = a ∧ s' = s ∧ calls = [] := by
  rw [yields_of_outcome (outcome_pure a s), Except.ok.injEq, eq_comm]

theorem not_yields_throw {e : ε} {a : α} {s s' : σ} {calls : List Call} :
    ¬ Yields (throw e : Exec ε σ α) s a s' calls := by
  rw [yields_of_outcome (outcome_throw e s)]
  simp

theorem yields_liftExcept {x : Except ε α} {a : α} {s s' : σ} {calls : List Call} :
    Yields (liftExcept x : Exec ε σ α) s a s' calls ↔ x = .ok a ∧ s' = s ∧ calls = [] :=
  yields_of_outcome (outcome_liftExcept x s)

theorem yields_traced {x : Traced Event α} {a : α} {s s' : σ} {calls : List Call} :
    Yields (x : Exec ε σ α) s a s' calls ↔
      a = x.value ∧ s' = s ∧ calls = callsOf x.trace := by
  rw [yields_of_outcome (outcome_traced x s), Except.ok.injEq, eq_comm]

theorem yields_note {event : Event} (hevent : event.call? = none) {u : Unit} {s s' : σ}
    {calls : List Call} :
    Yields ((Traced.note event : Traced Event Unit) : Exec ε σ Unit) s u s' calls ↔
      s' = s ∧ calls = [] := by
  have hcalls : callsOf [event] = [] := List.filterMap_cons_none hevent
  rw [yields_traced]
  simp [Traced.note, hcalls]

theorem yields_set {s₁ s s' : σ} {u : PUnit} {calls : List Call} :
    Yields (set s₁ : Exec ε σ PUnit) s u s' calls ↔ s' = s₁ ∧ calls = [] := by
  rw [yields_of_outcome (outcome_set s₁ s)]
  simp

theorem yields_adapt {f : ε → ε'} {x : Exec ε σ α} {a : α} {s s' : σ} {calls : List Call} :
    Yields (ExceptT.adapt f x) s a s' calls ↔ Yields x s a s' calls := by
  rw [Yields, outcome_adapt, Yields]
  obtain ⟨result, state, made⟩ := outcome x s
  cases result <;> simp [Except.mapError]

theorem yields_bind {x : Exec ε σ α} {f : α → Exec ε σ β} {b : β} {s s' : σ}
    {calls : List Call} :
    Yields (x >>= f) s b s' calls ↔
      ∃ a s₁ c₁ c₂, Yields x s a s₁ c₁ ∧ Yields (f a) s₁ b s' c₂ ∧ calls = c₁ ++ c₂ := by
  simp only [Yields, outcome_bind]
  obtain ⟨result, s₁, c₁⟩ := outcome x s
  cases result with
  | error e => simp [Outcome.andThen]
  | ok a =>
    constructor
    · intro hb
      simp only [Outcome.andThen, Outcome.mk.injEq] at hb
      obtain ⟨hr, hs, rfl⟩ := hb
      refine ⟨a, s₁, c₁, _, rfl, ?_, rfl⟩
      rw [← hr, ← hs]
    · intro h
      rcases h with ⟨a', s₁', c₁', c₂', hx, hf, rfl⟩
      simp only [Outcome.mk.injEq, Except.ok.injEq] at hx
      obtain ⟨rfl, rfl, rfl⟩ := hx
      simp only [Outcome.andThen, hf]

theorem outcome_bind_of_yields {x : Exec ε σ α} {s s' : σ} {a : α} {calls : List Call}
    (h : Yields x s a s' calls) (f : α → Exec ε σ β) :
    outcome (x >>= f) s = (outcome (f a) s').after calls := by
  rw [outcome_bind, h]
  rfl

/-! ## Failures -/

/-- From `s` the computation comes to the failure `e`. -/
def Fails (x : Exec ε σ α) (s : σ) (e : ε) : Prop := (outcome x s).result = .error e

theorem outcome_of_fails {x : Exec ε σ α} {s : σ} {e : ε} (h : Fails x s e) :
    outcome x s =
      { result := .error e, state := (outcome x s).state, calls := (outcome x s).calls } := by
  rw [Fails] at h
  rw [← h]

theorem not_fails_of_yields {x : Exec ε σ α} {s s' : σ} {a : α} {calls : List Call}
    (h : Yields x s a s' calls) (e : ε) : ¬ Fails x s e := by
  rw [Fails, h]
  simp

theorem not_fails_pure {a : α} {s : σ} {e : ε} : ¬ Fails (pure a : Exec ε σ α) s e :=
  not_fails_of_yields (yields_pure.mpr ⟨rfl, rfl, rfl⟩) e

theorem not_fails_traced {x : Traced Event α} {s : σ} {e : ε} : ¬ Fails (x : Exec ε σ α) s e :=
  not_fails_of_yields (yields_traced.mpr ⟨rfl, rfl, rfl⟩) e

theorem not_fails_set {s₁ s : σ} {e : ε} : ¬ Fails (set s₁ : Exec ε σ PUnit) s e :=
  not_fails_of_yields (a := ⟨⟩) (yields_set.mpr ⟨rfl, rfl⟩) e

theorem fails_throw {e₁ e : ε} {s : σ} : Fails (throw e₁ : Exec ε σ α) s e ↔ e₁ = e := by
  rw [Fails, outcome_throw, Except.error.injEq]

theorem fails_liftExcept {x : Except ε α} {s : σ} {e : ε} :
    Fails (liftExcept x : Exec ε σ α) s e ↔ x = .error e := by
  rw [Fails, outcome_liftExcept]

theorem fails_adapt {f : ε → ε'} {x : Exec ε σ α} {s : σ} {e : ε'} :
    Fails (ExceptT.adapt f x) s e ↔ ∃ e₁, Fails x s e₁ ∧ f e₁ = e := by
  rw [Fails, outcome_adapt]
  cases h : (outcome x s).result <;> simp [Fails, h, Except.mapError]

/-- A chain fails in its first part, or in its second where the first has led. -/
theorem fails_bind {x : Exec ε σ α} {f : α → Exec ε σ β} {s : σ} {e : ε} :
    Fails (x >>= f) s e ↔
      Fails x s e ∨ ∃ a s₁ c₁, Yields x s a s₁ c₁ ∧ Fails (f a) s₁ e := by
  simp only [Fails, Yields, outcome_bind]
  obtain ⟨result, s₁, c₁⟩ := outcome x s
  cases result with
  | error e₁ => simp [Outcome.andThen]
  | ok a =>
    simp only [Outcome.andThen, Outcome.mk.injEq, Except.ok.injEq, reduceCtorEq, false_or]
    constructor
    · intro h
      exact ⟨a, s₁, c₁, ⟨rfl, rfl, rfl⟩, h⟩
    · intro h
      rcases h with ⟨_, _, _, ⟨rfl, rfl, rfl⟩, h⟩
      exact h

/-- What stands behind a failure does not change it. -/
theorem outcome_bind_of_fails {x : Exec ε σ α} {s : σ} {e : ε} (h : Fails x s e)
    (f : α → Exec ε σ β) :
    outcome (x >>= f) s =
      { result := .error e, state := (outcome x s).state, calls := (outcome x s).calls } := by
  rw [Fails] at h
  rw [outcome_bind, Outcome.andThen, h]

end Exec
end SpendCheck
