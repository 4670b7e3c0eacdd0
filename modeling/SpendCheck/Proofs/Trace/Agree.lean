import SpendCheck.Proofs.Trace.Outcome

/-!
# Computations that agree

Two computations agree when they come to one result by the same verifier calls,
whatever states they start from.  The states may be of two kinds, so what is computed
for one transaction can be held against what is computed for another.  A computation
that agrees with itself makes nothing of the state it starts from; a row of such
computations comes to what each of them comes to on its own.
-/

namespace SpendCheck
namespace Exec

variable {ε ε' σ τ α β : Type}

def Agree (x : Exec ε σ α) (y : Exec ε τ α) : Prop :=
  ∀ s t, (outcome x s).result = (outcome y t).result ∧ (outcome x s).calls = (outcome y t).calls

theorem agree_of_outcome {x : Exec ε σ α} {y : Exec ε τ α} {r : Except ε α} {calls : List Call}
    (hx : ∀ s, (outcome x s).result = r ∧ (outcome x s).calls = calls)
    (hy : ∀ t, (outcome y t).result = r ∧ (outcome y t).calls = calls) : Agree x y := by
  intro s t
  rw [(hx s).1, (hx s).2, (hy t).1, (hy t).2]
  exact ⟨rfl, rfl⟩

theorem agree_pure (a : α) : Agree (pure a : Exec ε σ α) (pure a : Exec ε τ α) :=
  fun _ _ => ⟨rfl, rfl⟩

/-- What stands behind a failure does not matter. -/
theorem agree_throw_bind (e : ε) (f : α → Exec ε σ β) (g : α → Exec ε τ β) :
    Agree (throw e >>= f) (throw e >>= g) := by
  intro s t
  rw [outcome_bind, outcome_bind, outcome_throw, outcome_throw]
  exact ⟨rfl, rfl⟩

theorem agree_liftExcept (x : Except ε α) :
    Agree (liftExcept x : Exec ε σ α) (liftExcept x : Exec ε τ α) :=
  agree_of_outcome (fun s => by rw [outcome_liftExcept]; exact ⟨rfl, rfl⟩)
    (fun t => by rw [outcome_liftExcept]; exact ⟨rfl, rfl⟩)

theorem agree_traced (x : Traced Event α) : Agree (x : Exec ε σ α) (x : Exec ε τ α) :=
  agree_of_outcome (fun s => by rw [outcome_traced]; exact ⟨rfl, rfl⟩)
    (fun t => by rw [outcome_traced]; exact ⟨rfl, rfl⟩)

theorem Agree.adapt {x : Exec ε σ α} {y : Exec ε τ α} (h : Agree x y) (f : ε → ε') :
    Agree (ExceptT.adapt f x) (ExceptT.adapt f y) := by
  intro s t
  obtain ⟨hresult, hcalls⟩ := h s t
  rw [outcome_adapt, outcome_adapt]
  exact ⟨congrArg (Except.mapError f) hresult, hcalls⟩

theorem Agree.bind {x : Exec ε σ α} {y : Exec ε τ α} {f : α → Exec ε σ β} {g : α → Exec ε τ β}
    (h : Agree x y) (hnext : ∀ a, Agree (f a) (g a)) : Agree (x >>= f) (y >>= g) := by
  intro s t
  obtain ⟨hresult, hcalls⟩ := h s t
  rw [outcome_bind, outcome_bind]
  generalize outcome x s = o at hresult hcalls ⊢
  generalize outcome y t = o' at hresult hcalls ⊢
  obtain ⟨result, s', calls⟩ := o
  obtain ⟨_, t', _⟩ := o'
  obtain ⟨rfl, rfl⟩ : result = _ ∧ calls = _ := ⟨hresult, hcalls⟩
  cases result with
  | error e => exact ⟨rfl, rfl⟩
  | ok a =>
    obtain ⟨hresult, hcalls⟩ := hnext a s' t'
    exact ⟨hresult, congrArg (calls ++ ·) hcalls⟩

theorem Agree.foldlM {f : β → α → Exec ε σ β} {g : β → α → Exec ε τ β}
    (h : ∀ b a, Agree (f b a) (g b a)) (l : List α) (b : β) :
    Agree (l.foldlM f b) (l.foldlM g b) := by
  induction l generalizing b with
  | nil => exact agree_pure b
  | cons a l ih =>
    rw [List.foldlM_cons, List.foldlM_cons]
    exact (h b a).bind ih

/-- What leads to a result from one state leads to it from another. -/
theorem Agree.yields {x : Exec ε σ α} {y : Exec ε τ α} (h : Agree x y) {s s' : σ} {a : α}
    {calls : List Call} (hx : Yields x s a s' calls) (t : τ) :
    ∃ t', Yields y t a t' calls := by
  obtain ⟨hresult, hcalls⟩ := h s t
  rw [hx] at hresult hcalls
  have hy := yields_of_result hresult.symm
  rw [← hcalls] at hy
  exact ⟨_, hy⟩

/-! ## Rows -/

section Rows

variable {f : α → Exec ε σ β} {result : α → Except ε β} {calls : α → List Call}
  (hf : ∀ a s, (outcome (f a) s).result = result a ∧ (outcome (f a) s).calls = calls a)

include hf

theorem outcome_mapM_ok {l : List α} {bs : List β}
    (hok : List.Forall₂ (fun a b => result a = .ok b) l bs) (s : σ) :
    (outcome (l.mapM f) s).result = .ok bs ∧
      (outcome (l.mapM f) s).calls = l.flatMap calls := by
  induction hok generalizing s with
  | nil => exact ⟨rfl, rfl⟩
  | @cons a b l bs hvalue _ ih =>
    obtain ⟨hresult, hcalls⟩ := hf a s
    rw [hvalue] at hresult
    obtain ⟨hrest, hrestCalls⟩ := ih (outcome (f a) s).state
    rw [List.mapM_cons, outcome_bind]
    simp only [Outcome.andThen, hresult, hcalls, outcome_bind, hrest, hrestCalls, outcome_pure,
      List.append_nil, List.flatMap_cons, and_self]

/-- A row ends at its first failure. -/
theorem outcome_mapM_error {before : List α} (after : List α) {a : α} {e : ε}
    (hok : ∀ b ∈ before, ∃ value, result b = .ok value) (herror : result a = .error e) (s : σ) :
    (outcome ((before ++ a :: after).mapM f) s).result = .error e ∧
      (outcome ((before ++ a :: after).mapM f) s).calls = (before ++ [a]).flatMap calls := by
  induction before generalizing s with
  | nil =>
    obtain ⟨hresult, hcalls⟩ := hf a s
    rw [herror] at hresult
    rw [List.nil_append, List.mapM_cons, outcome_bind]
    simp [Outcome.andThen, hresult, hcalls]
  | cons b before ih =>
    obtain ⟨value, hvalue⟩ := hok b List.mem_cons_self
    obtain ⟨hresult, hcalls⟩ := hf b s
    rw [hvalue] at hresult
    obtain ⟨hrest, hrestCalls⟩ :=
      ih (fun c hc => hok c (List.mem_cons_of_mem b hc)) (outcome (f b) s).state
    rw [List.cons_append, List.mapM_cons, outcome_bind]
    simp only [Outcome.andThen, hresult, hcalls, outcome_bind, hrest, hrestCalls,
      List.cons_append, List.flatMap_cons, and_self]

end Rows

/-- Each result of a row is the result of one of its items. -/
theorem exists_yields_of_mapM {f : α → Exec ε σ β} {l : List α} {bs : List β} {s s' : σ}
    {calls : List Call} (h : Yields (l.mapM f) s bs s' calls) :
    ∀ b ∈ bs, ∃ a ∈ l, ∃ s₁ s₂ c, Yields (f a) s₁ b s₂ c := by
  induction l generalizing s s' bs calls with
  | nil =>
    obtain ⟨rfl, -⟩ := yields_pure.mp h
    exact fun b hb => absurd hb List.not_mem_nil
  | cons a l ih =>
    rw [List.mapM_cons] at h
    obtain ⟨first, s₁, c₁, _, hfirst, hrest, -⟩ := yields_bind.mp h
    obtain ⟨rest, s₂, c₂, _, hrow, hpure, -⟩ := yields_bind.mp hrest
    obtain ⟨rfl, -⟩ := yields_pure.mp hpure
    intro b hb
    cases List.mem_cons.mp hb with
    | inl heq => exact ⟨a, List.mem_cons_self, _, _, _, heq ▸ hfirst⟩
    | inr hmem =>
      obtain ⟨item, hitem, hyields⟩ := ih hrow b hmem
      exact ⟨item, List.mem_cons_of_mem a hitem, hyields⟩

/-- Either all of a row succeed, or there is a first failure. -/
theorem forall₂_ok_or_first_error (result : α → Except ε β) (l : List α) :
    (∃ bs, List.Forall₂ (fun a b => result a = .ok b) l bs) ∨
    ∃ before a after e, l = before ++ a :: after ∧
      (∀ b ∈ before, ∃ value, result b = .ok value) ∧ result a = .error e := by
  induction l with
  | nil => exact .inl ⟨[], .nil⟩
  | cons a l ih =>
    cases ha : result a with
    | error e => exact .inr ⟨[], a, l, e, rfl, by simp, ha⟩
    | ok value =>
      obtain ⟨bs, hbs⟩ | ⟨before, c, after, e, rfl, hbefore, hc⟩ := ih
      · exact .inl ⟨value :: bs, .cons ha hbs⟩
      · exact .inr ⟨a :: before, c, after, e, rfl,
          List.forall_mem_cons.mpr ⟨⟨value, ha⟩, hbefore⟩, hc⟩

end Exec
end SpendCheck
