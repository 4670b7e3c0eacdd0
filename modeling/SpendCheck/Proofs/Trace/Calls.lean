import SpendCheck.Proofs.Trace.Outcome

/-!
# What all calls have in common

A property of single calls holds throughout a computation where it holds throughout each of its
parts.  Every call counts, from whatever state and on the way to a failure too, so that nothing
has to be known of how the parts come out.
-/

namespace SpendCheck.Exec

variable {P Q : Call → Prop} {ε ε' σ α β : Type}

/-- From every state, and be it on the way to a failure, the computation makes only calls with
the property. -/
def AllCalls (P : Call → Prop) (x : Exec ε σ α) : Prop := ∀ s, ∀ call ∈ (outcome x s).calls, P call

theorem allCalls_of_none {x : Exec ε σ α} (h : ∀ s, (outcome x s).calls = []) : AllCalls P x := by
  intro s call hcall
  rw [h s] at hcall
  cases hcall

theorem allCalls_pure (a : α) : AllCalls P (pure a : Exec ε σ α) :=
  allCalls_of_none fun _ => by rw [outcome_pure]

/-- What stands behind a failure is never reached. -/
theorem allCalls_throw_bind (e : ε) (f : α → Exec ε σ β) :
    AllCalls P ((throw e : Exec ε σ α) >>= f) :=
  allCalls_of_none fun _ => by rw [outcome_bind, outcome_throw, Outcome.andThen]

theorem allCalls_liftExcept (x : Except ε α) : AllCalls P (liftExcept x : Exec ε σ α) :=
  allCalls_of_none fun _ => by rw [outcome_liftExcept]

theorem allCalls_traced {x : Traced Event α} (h : callsOf x.trace = []) :
    AllCalls P (x : Exec ε σ α) :=
  allCalls_of_none fun _ => by rw [outcome_traced, h]

theorem allCalls_note {event : Event} (h : event.call? = none) :
    AllCalls P ((Traced.note event : Traced Event Unit) : Exec ε σ Unit) :=
  allCalls_traced (List.filterMap_cons_none h)

theorem AllCalls.mono {x : Exec ε σ α} (h : AllCalls P x) (hPQ : ∀ call, P call → Q call) :
    AllCalls Q x := fun s call hcall => hPQ call (h s call hcall)

theorem AllCalls.adapt {x : Exec ε σ α} (h : AllCalls P x) (f : ε → ε') :
    AllCalls P (ExceptT.adapt f x) := by
  intro s
  rw [outcome_adapt]
  exact h s

/-- A part that is reached counts with all that it may be given. -/
theorem AllCalls.bind {x : Exec ε σ α} {f : α → Exec ε σ β} (hx : AllCalls P x)
    (hf : ∀ a, AllCalls P (f a)) : AllCalls P (x >>= f) := by
  intro s call hcall
  rw [outcome_bind, Outcome.andThen] at hcall
  cases hresult : (outcome x s).result with
  | error e =>
    rw [hresult] at hcall
    exact hx s call hcall
  | ok a =>
    rw [hresult] at hcall
    cases List.mem_append.mp hcall with
    | inl hfirst => exact hx s call hfirst
    | inr hrest => exact hf a _ call hrest

/-- A first part that reads a value without a call need be followed only where it has read
one. -/
theorem AllCalls.liftExcept_bind {x : Except ε α} {f : α → Exec ε σ β}
    (hf : ∀ a, x = .ok a → AllCalls P (f a)) :
    AllCalls P ((liftExcept x : Exec ε σ α) >>= f) := by
  intro s call hcall
  rw [outcome_bind, outcome_liftExcept] at hcall
  cases x with
  | error e => cases hcall
  | ok a => exact hf a rfl s call hcall

theorem AllCalls.foldlM {step : β → α → Exec ε σ β} (h : ∀ b a, AllCalls P (step b a))
    (items : List α) (start : β) : AllCalls P (items.foldlM step start) := by
  induction items generalizing start with
  | nil => exact allCalls_pure start
  | cons item items ih =>
    rw [List.foldlM_cons]
    exact (h start item).bind ih

theorem AllCalls.mapM {f : α → Exec ε σ β} {items : List α} (h : ∀ a ∈ items, AllCalls P (f a)) :
    AllCalls P (items.mapM f) := by
  induction items with
  | nil => exact allCalls_pure []
  | cons item items ih =>
    rw [List.mapM_cons]
    refine (h item List.mem_cons_self).bind fun b => ?_
    exact (ih fun a ha => h a (List.mem_cons_of_mem item ha)).bind fun _ => allCalls_pure _

end SpendCheck.Exec
