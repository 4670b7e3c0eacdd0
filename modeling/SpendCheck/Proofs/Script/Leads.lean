import SpendCheck.Proofs.Signature.Check
import SpendCheck.Script.Run

/-!
# How a machine moves

What a single token does to a machine, read in both directions, and how the moves of
one script after another combine.  A machine that waits for no data is `ready`.
-/

namespace SpendCheck

/-- A machine that waits for no data. -/
def Machine.ready (stack : Stack) (steps : Nat) : Machine := { stack, steps, pending := none }

theorem Machine.ready_inj {stack stack' : Stack} {steps steps' : Nat} :
    ready stack steps = ready stack' steps' ↔ stack = stack' ∧ steps = steps' := by
  simp [ready]

namespace Runner

variable {tx : Transaction}

open Exec

/-- The limit of the run, if it has one, is not below this number of steps. -/
def Allows (r : Runner) (steps : Nat) : Prop := ∀ limit, r.limit = some limit → steps ≤ limit

theorem Allows.mono {r : Runner} {n k : Nat} (h : r.Allows k) (hle : n ≤ k) : r.Allows n :=
  fun limit hlimit => Nat.le_trans hle (h limit hlimit)

theorem exceeded?_eq_none {r : Runner} {steps : Nat} :
    r.exceeded? steps = none ↔ r.Allows steps := by
  unfold exceeded? Allows
  rw [Option.filter_eq_none_iff]
  simp

/-- The tokens take the machine `m` in the session `s` to `m'` in `s'`, with these
calls of the verifier on the way. -/
def Leads (r : Runner) (tokens : Asm) (m : Machine) (s : Session tx) (m' : Machine)
    (s' : Session tx) (calls : List Call) : Prop :=
  Yields (tokens.foldlM r.feed m) s m' s' calls

variable {r : Runner} {m m' : Machine} {s s' : Session tx} {calls : List Call}

theorem leads_nil : r.Leads [] m s m' s' calls ↔ m' = m ∧ s' = s ∧ calls = [] := by
  rw [Leads, List.foldlM_nil, yields_pure]

theorem leads_cons {token : String} {tokens : Asm} :
    r.Leads (token :: tokens) m s m' s' calls ↔
      ∃ m₁ s₁ c₁ c₂, Yields (r.feed m token) s m₁ s₁ c₁ ∧ r.Leads tokens m₁ s₁ m' s' c₂ ∧
        calls = c₁ ++ c₂ := by
  rw [Leads, List.foldlM_cons, yields_bind]
  rfl

theorem leads_append {first second : Asm} :
    r.Leads (first ++ second) m s m' s' calls ↔
      ∃ m₁ s₁ c₁ c₂, r.Leads first m s m₁ s₁ c₁ ∧ r.Leads second m₁ s₁ m' s' c₂ ∧
        calls = c₁ ++ c₂ := by
  rw [Leads, List.foldlM_append, yields_bind]
  rfl

theorem Leads.append {first second : Asm} {m₁ : Machine} {s₁ : Session tx} {c₁ c₂ : List Call}
    (hfirst : r.Leads first m s m₁ s₁ c₁) (hsecond : r.Leads second m₁ s₁ m' s' c₂) :
    r.Leads (first ++ second) m s m' s' (c₁ ++ c₂) :=
  leads_append.mpr ⟨m₁, s₁, c₁, c₂, hfirst, hsecond, rfl⟩

theorem leads_singleton {token : String} :
    r.Leads [token] m s m' s' calls ↔ Yields (r.feed m token) s m' s' calls := by
  rw [Leads, List.foldlM_cons]
  simp [List.foldlM_nil]

theorem yields_run {script : Asm} {start stack : Stack} :
    Yields (r.run script start) s stack s' calls ↔
      ∃ steps, r.Leads script (.ready start 0) s (.ready stack steps) s' calls := by
  rw [run, yields_bind]
  simp only [yields_liftExcept]
  constructor
  · intro h
    rcases h with ⟨⟨stack', steps, pending⟩, s₁, c₁, c₂, hlead, ⟨hfinish, rfl, rfl⟩, rfl⟩
    cases pending with
    | none =>
      obtain rfl : stack' = stack := by simpa [Machine.finish] using hfinish
      rw [List.append_nil]
      exact ⟨steps, hlead⟩
    | some push => simp [Machine.finish] at hfinish
  · intro h
    rcases h with ⟨steps, hlead⟩
    exact ⟨_, _, calls, [], hlead, ⟨rfl, rfl, rfl⟩, (List.append_nil _).symm⟩

/-! ## One token -/

/-- A token behind a push is its data, whatever opcode it may spell. -/
theorem yields_feed_pending {push : Push} (hm : m.pending = some push) {token : String} :
    Yields (r.feed m token) s m' s' calls ↔
      ∃ value, push.value token = .ok value ∧ m' = .ready (value :: m.stack) m.steps ∧
        s' = s ∧ calls = [] := by
  rw [feed, hm]
  simp only [yields_bind, yields_liftExcept, yields_pure]
  constructor
  · intro h
    rcases h with ⟨value, _, _, _, ⟨hvalue, rfl, rfl⟩, ⟨rfl, rfl, rfl⟩, rfl⟩
    exact ⟨value, hvalue, rfl, rfl, rfl⟩
  · intro h
    rcases h with ⟨value, hvalue, rfl, rfl, rfl⟩
    exact ⟨value, _, _, _, ⟨hvalue, rfl, rfl⟩, ⟨rfl, rfl, rfl⟩, rfl⟩

theorem yields_feed_ready {stack : Stack} {steps : Nat} {token : String} :
    Yields (r.feed (.ready stack steps) token) s m' s' calls ↔
      r.Allows (steps + 1) ∧ ∃ op e, Opcode.parse token = .ok op ∧ op.effect stack = .ok e ∧
        Yields (r.settle (steps + 1) e) s m' s' calls := by
  show Yields (r.execute (.ready stack steps) token) s m' s' calls ↔ _
  rw [← exceeded?_eq_none]
  have hsteps : (Machine.ready stack steps).steps = steps := rfl
  have hstack : (Machine.ready stack steps).stack = stack := rfl
  simp only [execute, hsteps, hstack]
  cases r.exceeded? (steps + 1) with
  | some limit => simp [not_yields_throw]
  | none =>
    simp only [yields_bind, yields_liftExcept, yields_note (Event.call?_step ..),
      mapError_eq_ok, true_and]
    constructor
    · intro h
      rcases h with ⟨op, _, _, _, ⟨hop, rfl, rfl⟩, ⟨_, _, _, _, ⟨rfl, rfl⟩, ⟨e, _, _, _,
        ⟨he, rfl, rfl⟩, hsettle, rfl⟩, rfl⟩, rfl⟩
      exact ⟨op, e, hop, he, hsettle⟩
    · intro h
      rcases h with ⟨op, e, hop, he, hsettle⟩
      exact ⟨op, _, _, _, ⟨hop, rfl, rfl⟩, ⟨⟨⟩, _, _, _, ⟨rfl, rfl⟩, ⟨e, _, _, _,
        ⟨he, rfl, rfl⟩, hsettle, rfl⟩, rfl⟩, rfl⟩

theorem yields_settle_settled {stack : Stack} {steps : Nat} :
    Yields (r.settle steps (.settled stack)) s m' s' calls ↔
      m' = .ready stack steps ∧ s' = s ∧ calls = [] := yields_pure

theorem yields_settle_awaits {push : Push} {stack : Stack} {steps : Nat} :
    Yields (r.settle steps (.awaits push stack)) s m' s' calls ↔
      m' = ⟨stack, steps, some push⟩ ∧ s' = s ∧ calls = [] := yields_pure

theorem yields_check {signatures keys : List Bytes} {accepted : Bool} :
    Yields (r.check signatures keys) s accepted s' calls ↔
      Yields (Session.checkSignatures r.verifier r.inputIndex signatures keys) s accepted s'
        calls := by
  simp only [check, yields_bind, yields_adapt, yields_note (Event.call?_checked ..),
    yields_pure]
  constructor
  · intro h
    rcases h with ⟨_, _, _, _, hcheck, ⟨_, _, _, _, ⟨rfl, rfl⟩, ⟨rfl, rfl, rfl⟩, rfl⟩, rfl⟩
    rw [List.append_nil, List.append_nil]
    exact hcheck
  · intro hcheck
    exact ⟨accepted, s', calls, [], hcheck,
      ⟨⟨⟩, s', [], [], ⟨rfl, rfl⟩, ⟨rfl, rfl, rfl⟩, rfl⟩, (List.append_nil _).symm⟩

theorem yields_settle_asks {signatures keys : List Bytes} {below : Stack} {steps : Nat} :
    Yields (r.settle steps (.asks signatures keys below)) s m' s' calls ↔
      ∃ accepted, Yields (r.check signatures keys) s accepted s' calls ∧
        m' = .ready (.bool accepted :: below) steps := by
  simp only [settle, yields_bind, yields_pure]
  constructor
  · intro h
    rcases h with ⟨accepted, _, _, _, hcheck, ⟨rfl, rfl, rfl⟩, rfl⟩
    rw [List.append_nil]
    exact ⟨accepted, hcheck, rfl⟩
  · intro h
    rcases h with ⟨accepted, hcheck, rfl⟩
    exact ⟨accepted, s', calls, [], hcheck, ⟨rfl, rfl, rfl⟩, (List.append_nil _).symm⟩

end Runner
end SpendCheck
