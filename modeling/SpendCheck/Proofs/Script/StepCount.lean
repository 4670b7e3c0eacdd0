import SpendCheck.Proofs.Script.Limit
import SpendCheck.Proofs.Script.Sequence

/-!
# How many steps a run takes

A token is a step unless it is the data of a push.  The number of steps that a run takes
without a limit tells what it comes to under one: the same where the limit is not below that
number, and the failure that names the limit where it is.
-/

namespace SpendCheck
namespace Runner

open Exec

variable {tx : Transaction} {r : Runner} {limit steps : Nat} {m m' : Machine}
  {s s' : Session tx} {calls : List Call}

/-- The same run, without a limit. -/
def unlimited (r : Runner) : Runner := { r with limit := none }

/-- What a token adds to the steps of a machine: nothing as the data of a push, and one as an
opcode. -/
def stepOf (m : Machine) : Nat := if m.pending.isSome then 0 else 1

/-- How many steps a script takes from a machine on.  A token that fails counts, and those
behind it do not. -/
def stepsTaken (r : Runner) : Asm → Machine → Session tx → Nat
  | [], _, _ => 0
  | token :: tokens, m, s =>
    match outcome (r.feed m token) s with
    | { result := .ok m', state := s', .. } => stepOf m + r.stepsTaken tokens m' s'
    | { result := .error _, .. } => stepOf m

theorem steps_of_settle {effect : Effect}
    (h : Yields (r.settle steps effect) s m' s' calls) : m'.steps = steps := by
  cases effect with
  | settled stack => rw [(yields_settle_settled.mp h).1, Machine.ready]
  | awaits push stack => rw [(yields_settle_awaits.mp h).1]
  | asks signatures keys below =>
    obtain ⟨_, -, hm⟩ := yields_settle_asks.mp h
    rw [hm, Machine.ready]

theorem steps_of_feed {token : String} (h : Yields (r.feed m token) s m' s' calls) :
    m'.steps = m.steps + stepOf m := by
  obtain ⟨stack, steps, pending⟩ := m
  cases pending with
  | some push =>
    obtain ⟨_, -, hm, -⟩ := (yields_feed_pending rfl).mp h
    rw [hm]
    rfl
  | none =>
    obtain ⟨-, _, _, -, -, hsettle⟩ := yields_feed_ready.mp h
    exact steps_of_settle hsettle

/-- A script that gets through has taken the steps that the machine counts. -/
theorem steps_of_leads {script : Asm} (h : r.Leads script m s m' s' calls) :
    m'.steps = m.steps + r.stepsTaken script m s := by
  induction script generalizing m s calls with
  | nil =>
    rw [(leads_nil.mp h).1]
    rfl
  | cons token tokens ih =>
    obtain ⟨m₁, s₁, c₁, c₂, hfeed, htokens, -⟩ := leads_cons.mp h
    rw [ih htokens, steps_of_feed hfeed, stepsTaken, hfeed, Nat.add_assoc]

theorem exceeded?_unlimited : r.unlimited.exceeded? steps = none := rfl

/-- As long as there is room for a step, a token does what it does without a limit. -/
theorem feed_limited (hroom : m.steps + stepOf m ≤ limit) (token : String) :
    ((r.limited limit).feed m token : Exec ScriptError (Session tx) Machine) =
      r.unlimited.feed m token := by
  obtain ⟨stack, steps, pending⟩ := m
  cases pending with
  | some push => rfl
  | none =>
    have hsteps : ¬ limit < steps + 1 := Nat.not_lt.mpr hroom
    simp only [feed, execute, exceeded?_limited, exceeded?_unlimited, if_neg hsteps]
    rfl

theorem outcome_feed_at_limit (hsteps : m.steps ≤ limit) (hfull : limit < m.steps + stepOf m)
    (token : String) (s : Session tx) :
    outcome ((r.limited limit).feed m token) s =
      { result := .error (.stepLimitExceeded limit), state := s, calls := [] } := by
  obtain ⟨stack, steps, pending⟩ := m
  cases pending with
  | some push => exact absurd hfull (Nat.not_lt.mpr hsteps)
  | none =>
    have hexceeded : limit < steps + 1 := hfull
    simp only [feed, execute, exceeded?_limited, if_pos hexceeded]
    rfl

/-- The induction is on the script, with the machine and the session at any point of the run:
the steps made so far and those still to be taken add up to what the limit is compared with. -/
theorem outcome_resume_limited (script : Asm) (hsteps : m.steps ≤ limit) (s : Session tx) :
    let free := outcome (r.unlimited.resume script m) s
    let bounded := outcome ((r.limited limit).resume script m) s
    (m.steps + r.unlimited.stepsTaken script m s ≤ limit → bounded = free) ∧
      (limit < m.steps + r.unlimited.stepsTaken script m s →
        bounded.result = .error (.stepLimitExceeded limit) ∧ bounded.calls <+: free.calls) := by
  induction script generalizing m s with
  | nil => exact ⟨fun _ => rfl, fun hless => absurd hless (Nat.not_lt.mpr hsteps)⟩
  | cons token tokens ih =>
    simp only [resume_cons, outcome_bind]
    by_cases hroom : m.steps + stepOf m ≤ limit
    · rw [feed_limited hroom, stepsTaken]
      cases hfeed : outcome (r.unlimited.feed m token) s with
      | mk result s₁ c₁ =>
        cases result with
        | error e => exact ⟨fun _ => rfl, fun hless => absurd hless (Nat.not_lt.mpr hroom)⟩
        | ok m₁ =>
          have hm₁ : m₁.steps = m.steps + stepOf m := steps_of_feed hfeed
          obtain ⟨hsame, hstops⟩ := ih (hm₁ ▸ hroom) s₁
          simp only [Outcome.andThen, ← Nat.add_assoc, ← hm₁]
          refine ⟨fun henough => by rw [hsame henough], fun hless => ?_⟩
          obtain ⟨hresult, hcalls⟩ := hstops hless
          exact ⟨hresult, (List.prefix_append_right_inj c₁).mpr hcalls⟩
    · have hfull : limit < m.steps + stepOf m := Nat.lt_of_not_le hroom
      have hcounted : stepOf m ≤ r.unlimited.stepsTaken (token :: tokens) m s := by
        rw [stepsTaken]
        split
        · exact Nat.le_add_right _ _
        · exact Nat.le_refl _
      rw [outcome_feed_at_limit hsteps hfull]
      exact ⟨fun henough => by omega, fun _ => ⟨rfl, List.nil_prefix⟩⟩

/-- A limit changes nothing as long as it is not below the number of steps that the run takes
without it.  Otherwise the run stops with a failure that names the limit, having made some of
the calls that it would have made, in the same order. -/
theorem outcome_run_limited (r : Runner) (script : Asm) (stack : Stack) (s : Session tx)
    (limit : Nat) :
    let free := outcome (r.unlimited.run script stack) s
    let bounded := outcome ((r.limited limit).run script stack) s
    let taken := r.unlimited.stepsTaken script (.ready stack 0) s
    (taken ≤ limit → bounded = free) ∧
      (limit < taken → bounded.result = .error (.stepLimitExceeded limit) ∧
        bounded.calls <+: free.calls) := by
  have hresume := outcome_resume_limited (r := r) script
    (m := .ready stack 0) (Nat.zero_le limit) s
  rw [← run_eq_resume, ← run_eq_resume] at hresume
  have hstart : (Machine.ready stack 0).steps + r.unlimited.stepsTaken script (.ready stack 0) s =
      r.unlimited.stepsTaken script (.ready stack 0) s := Nat.zero_add _
  rwa [hstart] at hresume

/-- A push with its data, a literal and a comparison. -/
def compares : Asm := ["OP_PUSHBYTES_1", "51", "51", "OP_EQUAL"]

/-- The data of the push is no step: three steps are enough for four tokens, and two are not. -/
theorem outcome_run_limited_compares :
    let s : Session Session.twoRegimes := .fresh
    outcome ((approving.limited 3).run compares []) s =
        outcome (approving.unlimited.run compares []) s ∧
      (outcome ((approving.limited 2).run compares []) s).result =
        .error (.stepLimitExceeded 2) := by
  intro s
  have htaken : approving.unlimited.stepsTaken compares (.ready [] 0) s = 3 := rfl
  exact ⟨(outcome_run_limited approving compares [] s 3).1 (by omega),
    ((outcome_run_limited approving compares [] s 2).2 (by omega)).1⟩

end Runner
end SpendCheck
