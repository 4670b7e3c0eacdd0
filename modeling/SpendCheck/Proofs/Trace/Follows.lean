import SpendCheck.Proofs.Trace.Outcome

/-!
# Computations with more at hand

A computation that runs out of something stops with the failure that says so.  With more
at hand, a deeper stack or a larger limit, it gets at least as far: it follows the one
with less wherever that one does not run out, by the same calls and into the same state.
What the two come to may differ by what was added, and so is read through a map.
-/

namespace SpendCheck

/-- The second result is the first one read through `f`, unless the first one is the
failure `out`. -/
def SameUnless {ε α β : Type} (out : ε) (f : α → β) (x : Except ε α) (y : Except ε β) : Prop :=
  x ≠ .error out → y = x.map f

namespace SameUnless

variable {ε α β α' β' : Type} {out : ε} {f : α → β}

theorem ok (a : α) : SameUnless out f (.ok a) (.ok (f a)) := fun _ => rfl

theorem error (e : ε) : SameUnless out f (.error e) (.error e) := fun _ => rfl

theorem ran_out (y : Except ε β) : SameUnless out f (.error out) y := fun h => absurd rfl h

theorem bind {x : Except ε α} {y : Except ε β} (h : SameUnless out f x y) {f' : α' → β'}
    {next : α → Except ε α'} {next' : β → Except ε β'}
    (hnext : ∀ a, SameUnless out f' (next a) (next' (f a))) :
    SameUnless out f' (x >>= next) (y >>= next') := by
  intro hout
  cases x with
  | error e =>
    have hy : y = .error e := h fun he => hout (congrArg _ (Except.error.inj he))
    rw [hy]
    rfl
  | ok a =>
    have hy : y = .ok (f a) := h (by simp)
    rw [hy]
    exact hnext a hout

end SameUnless

namespace Exec

variable {ε σ α β α' β' : Type} {out : ε} {f : α → β}

/-- From every state `y` comes to what `x` comes to, read through `f`, unless `x` comes to
the failure `out`. -/
def Follows (out : ε) (f : α → β) (x : Exec ε σ α) (y : Exec ε σ β) : Prop :=
  ∀ s, ¬ Fails x s out → outcome y s = (outcome x s).map f

theorem follows_refl (x : Exec ε σ α) : Follows out id x x := by
  intro s _
  obtain ⟨result, state, calls⟩ := outcome x s
  cases result <;> rfl

theorem follows_pure (a : α) : Follows out f (pure a : Exec ε σ α) (pure (f a)) :=
  fun _ _ => rfl

theorem follows_throw (e : ε) : Follows out f (throw e : Exec ε σ α) (throw e) :=
  fun _ _ => rfl

theorem follows_ran_out (y : Exec ε σ β) : Follows out f (throw out : Exec ε σ α) y :=
  fun _ h => absurd (fails_throw.mpr rfl) h

theorem follows_liftExcept {x : Except ε α} {y : Except ε β} (h : SameUnless out f x y) :
    Follows out f (liftExcept x : Exec ε σ α) (liftExcept y) := by
  intro s hout
  rw [fails_liftExcept] at hout
  rw [outcome_liftExcept, outcome_liftExcept, h hout]
  rfl

/-- Records that are no calls may differ. -/
theorem follows_note {event event' : Event} (hevent : event.call? = none)
    (hevent' : event'.call? = none) :
    Follows out id ((Traced.note event : Traced Event Unit) : Exec ε σ Unit)
      (Traced.note event' : Traced Event Unit) := by
  intro s _
  have hcalls : callsOf [event] = [] := List.filterMap_cons_none hevent
  have hcalls' : callsOf [event'] = [] := List.filterMap_cons_none hevent'
  rw [outcome_traced, outcome_traced, Traced.note, Traced.note, hcalls, hcalls']
  rfl

theorem Follows.bind {x : Exec ε σ α} {y : Exec ε σ β} (h : Follows out f x y) {f' : α' → β'}
    {next : α → Exec ε σ α'} {next' : β → Exec ε σ β'}
    (hnext : ∀ a, Follows out f' (next a) (next' (f a))) :
    Follows out f' (x >>= next) (y >>= next') := by
  intro s hout
  have hfirst : ¬ Fails x s out := fun hx => hout (fails_bind.mpr (.inl hx))
  have hsame : outcome y s = (outcome x s).map f := h s hfirst
  rw [outcome_bind, outcome_bind, hsame, Outcome.andThen_map]
  cases hx : outcome x s with
  | mk result s₁ calls =>
    cases result with
    | error e => rfl
    | ok a =>
      have hrest : ¬ Fails (next a) s₁ out := fun hfails =>
        hout (fails_bind.mpr (.inr ⟨a, s₁, calls, hx, hfails⟩))
      simp only [Outcome.andThen, hnext a s₁ hrest]
      rfl

/-- A fold follows another one where each of its steps does. -/
theorem Follows.foldlM {g : α → α' → Exec ε σ α} {g' : β → α' → Exec ε σ β}
    (h : ∀ a item, Follows out f (g a item) (g' (f a) item)) (items : List α') (a : α) :
    Follows out f (items.foldlM g a) (items.foldlM g' (f a)) := by
  induction items generalizing a with
  | nil => exact follows_pure a
  | cons item items ih =>
    rw [List.foldlM_cons, List.foldlM_cons]
    exact (h a item).bind ih

/-- Either the computation with less runs out, or the two come to the same. -/
theorem Follows.result {x y : Exec ε σ α} (h : Follows out id x y) (s : σ) :
    (outcome x s).result = .error out ∨ (outcome x s).result = (outcome y s).result := by
  by_cases hout : Fails x s out
  · exact .inl hout
  · refine .inr ?_
    rw [h s hout]
    obtain ⟨result, state, calls⟩ := outcome x s
    cases result <;> rfl

end Exec
end SpendCheck
