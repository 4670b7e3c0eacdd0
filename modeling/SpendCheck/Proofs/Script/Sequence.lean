import SpendCheck.Proofs.Script.Agree
import SpendCheck.Proofs.Script.Failure

/-!
# One script after another

Running a script and then another over the stack that it leaves is running the two as
one.  Only a push at the end of the first script makes a difference: on its own it lacks
its data, and in front of the second script it takes the first token of that.  The
number of steps made so far is part of the machine, but without a limit nothing reads
it, so the second script may as well start to count from zero.
-/

namespace SpendCheck

open Exec

/-- The machine as it would stand if it had made no step. -/
def Machine.uncounted (m : Machine) : Machine := { m with steps := 0 }

theorem Machine.uncounted_ready (stack : Stack) (steps : Nat) :
    (ready stack steps).uncounted = ready stack 0 := rfl

theorem Opcode.of_effect_awaits {op : Opcode} {stack below : Stack} {push : Push}
    (h : op.effect stack = .ok (.awaits push below)) : op = push.opcode ∧ below = stack := by
  cases op with
  | pushData1 =>
    obtain ⟨rfl, rfl⟩ : .any = push ∧ stack = below := by simpa [effect] using h
    exact ⟨rfl, rfl⟩
  | pushBytes length =>
    obtain ⟨rfl, rfl⟩ : .exactly length = push ∧ stack = below := by simpa [effect] using h
    exact ⟨rfl, rfl⟩
  | hash160 | sha256 =>
    obtain ⟨_, -, hsettled⟩ := bind_eq_ok.mp h
    cases hsettled
  | checkSig | checkMultiSig =>
    obtain ⟨_, -, hrest⟩ := bind_eq_ok.mp h
    obtain ⟨_, -, hasks⟩ := bind_eq_ok.mp hrest
    cases hasks
  | dup =>
    cases stack <;> simp [effect] at h
  | equal =>
    cases stack with
    | nil => simp [effect] at h
    | cons _ stack => cases stack <;> simp [effect] at h
  | equalVerify =>
    cases stack with
    | nil => simp [effect] at h
    | cons first stack =>
      cases stack with
      | nil => simp [effect] at h
      | cons second _ => by_cases heq : first = second <;> simp [effect, heq] at h
  | zero | literal => simp [effect] at h

namespace Runner

variable {tx : Transaction} {r : Runner} {m m' : Machine} {s s' : Session tx}
  {calls : List Call}

/-- Goes on with a script from any machine. -/
def resume (r : Runner) (script : Asm) (m : Machine) : Exec ScriptError (Session tx) Stack := do
  let m ← script.foldlM r.feed m
  liftExcept m.finish

theorem run_eq_resume (script : Asm) (stack : Stack) :
    (r.run script stack : Exec ScriptError (Session tx) Stack) =
      r.resume script (.ready stack 0) := rfl

theorem resume_cons (token : String) (tokens : Asm) (m : Machine) :
    (r.resume (token :: tokens) m : Exec ScriptError (Session tx) Stack) =
      r.feed m token >>= r.resume tokens := by
  rw [resume, List.foldlM_cons, bind_assoc]
  rfl

theorem run_append_eq_bind (first second : Asm) (stack : Stack) :
    (r.run (first ++ second) stack : Exec ScriptError (Session tx) Stack) =
      first.foldlM r.feed (.ready stack 0) >>= r.resume second := by
  rw [run_append]
  rfl

/-! ## A push at the end -/

theorem parse_of_feed_pending {stack : Stack} {steps : Nat} {token : String} {push : Push}
    (h : Yields (r.feed (.ready stack steps) token) s m' s' calls)
    (hpending : m'.pending = some push) :
    Opcode.parse token = .ok push.opcode ∧ m'.stack = stack ∧ s' = s ∧ calls = [] := by
  obtain ⟨-, op, effect, hparse, heffect, hsettle⟩ := yields_feed_ready.mp h
  cases effect with
  | settled stack' =>
    rw [(yields_settle_settled.mp hsettle).1] at hpending
    cases hpending
  | asks signatures keys below =>
    obtain ⟨accepted, -, hm⟩ := yields_settle_asks.mp hsettle
    rw [hm] at hpending
    cases hpending
  | awaits asked below =>
    obtain ⟨hm, hs, hcalls⟩ := yields_settle_awaits.mp hsettle
    have hpush : asked = push := by
      rw [hm] at hpending
      exact Option.some.inj hpending
    obtain ⟨hop, hbelow⟩ := Opcode.of_effect_awaits heffect
    rw [hop, hpush] at hparse
    rw [hm]
    exact ⟨hparse, hbelow, hs, hcalls⟩

/-- A script after which data is waited for ends in the push that asks for it. -/
theorem push_of_leads_pending {tokens : Asm} {stack : Stack} {push : Push}
    (h : r.Leads tokens (.ready stack 0) s m' s' calls) (hpending : m'.pending = some push) :
    ∃ before token, tokens = before ++ [token] ∧ Opcode.parse token = .ok push.opcode ∧
      Yields (r.run before stack) s m'.stack s' calls := by
  cases List.eq_nil_or_concat' tokens with
  | inl hnil =>
    rw [hnil, leads_nil] at h
    rw [h.1] at hpending
    cases hpending
  | inr hconcat =>
    obtain ⟨before, token, htokens⟩ := hconcat
    rw [htokens, leads_append] at h
    obtain ⟨m₁, s₁, c₁, c₂, hbefore, hlast, hcalls⟩ := h
    have hfeed : Yields (r.feed m₁ token) s₁ m' s' c₂ := leads_singleton.mp hlast
    have hready : m₁.pending = none := by
      by_contra hnone
      obtain ⟨earlier, hearlier⟩ := Option.ne_none_iff_exists'.mp hnone
      obtain ⟨value, -, hm, -⟩ := (yields_feed_pending hearlier).mp hfeed
      rw [hm] at hpending
      cases hpending
    have hm₁ : m₁ = .ready m₁.stack m₁.steps := by
      rw [Machine.ready, ← hready]
    rw [hm₁] at hfeed hbefore
    obtain ⟨hparse, hstack, hs, hc₂⟩ := parse_of_feed_pending hfeed hpending
    rw [hc₂, List.append_nil] at hcalls
    rw [hstack, hs, hcalls]
    exact ⟨before, token, htokens, hparse, yields_run.mpr ⟨m₁.steps, hbefore⟩⟩

/-- Only the end of a script makes a push lack its data. -/
theorem not_fails_foldlM_missingPushData {tokens : Asm} {op : Opcode} :
    ¬ Fails (tokens.foldlM r.feed m) s (.missingPushData op) := by
  intro h
  obtain ⟨_, _, _, hfeed⟩ := fails_feed_of_fails_foldlM h
  obtain ⟨_, he⟩ | ⟨_, he⟩ | hdata | hoperands | ⟨_, he, -⟩ := cause_of_fails_feed hfeed
  · cases he
  · cases he
  · exact hdata.elim
  · exact hoperands.elim
  · cases he

/-! ## Steps that nothing reads -/

/-- The effect of the opcode that a token spells. -/
def effectOf (token : String) (stack : Stack) : Except ScriptError Effect := do
  let opcode ← (Opcode.parse token).mapError ScriptError.token
  opcode.effect stack

theorem outcome_settle_uncounted (steps : Nat) (effect : Effect) (s : Session tx) :
    (outcome (r.settle steps effect) s).map Machine.uncounted =
      (outcome (r.settle 1 effect) s).map Machine.uncounted := by
  cases effect with
  | settled stack => rfl
  | awaits push stack => rfl
  | asks signatures keys below =>
    rw [settle, settle, outcome_bind, outcome_bind]
    cases hchecked : outcome (r.check signatures keys) s with
    | mk result s' calls => cases result <;> rfl

section Unlimited

variable (hlimit : r.limit = none)

include hlimit

theorem exceeded?_of_unlimited (steps : Nat) : r.exceeded? steps = none := by
  rw [exceeded?, hlimit]
  rfl

/-- Without a limit a token comes to the effect that it has on the stack, carried out. -/
theorem outcome_execute_unlimited (m : Machine) (token : String) (s : Session tx) :
    outcome (r.execute m token) s =
      match effectOf token m.stack with
      | .error e => { result := .error e, state := s, calls := [] }
      | .ok effect => outcome (r.settle (m.steps + 1) effect) s := by
  simp only [execute, exceeded?_of_unlimited hlimit, effectOf]
  rw [outcome_bind, outcome_liftExcept]
  cases (Opcode.parse token).mapError ScriptError.token with
  | error e => rfl
  | ok op =>
    -- The record of the step is no call.
    simp only [Outcome.andThen, bind, Except.bind]
    cases op.effect m.stack <;> rfl

theorem outcome_execute_uncounted (m : Machine) (token : String) (s : Session tx) :
    (outcome (r.execute m token) s).map Machine.uncounted =
      (outcome (r.execute m.uncounted token) s).map Machine.uncounted := by
  have hstack : m.uncounted.stack = m.stack := rfl
  rw [outcome_execute_unlimited hlimit, outcome_execute_unlimited hlimit, hstack]
  cases effectOf token m.stack with
  | error e => rfl
  | ok effect => exact outcome_settle_uncounted (m.steps + 1) effect s

theorem outcome_feed_uncounted (m : Machine) (token : String) (s : Session tx) :
    (outcome (r.feed m token) s).map Machine.uncounted =
      (outcome (r.feed m.uncounted token) s).map Machine.uncounted := by
  have hpending : m.uncounted.pending = m.pending := rfl
  rw [feed, feed, hpending]
  cases m.pending with
  | none => exact outcome_execute_uncounted hlimit m token s
  | some push =>
    rw [outcome_bind, outcome_bind, outcome_liftExcept]
    cases push.value token <;> rfl

theorem outcome_resume_uncounted (script : Asm) (m : Machine) (s : Session tx) :
    outcome (r.resume script m) s = outcome (r.resume script m.uncounted) s := by
  induction script generalizing m s with
  | nil => rfl
  | cons token tokens ih =>
    have hnext : (fun m' : Machine => outcome (r.resume tokens m' : Exec _ (Session tx) _)) =
        fun m' => outcome (r.resume tokens m'.uncounted) := by
      funext m' s'
      exact ih m' s'
    calc outcome (r.resume (token :: tokens) m) s
        = (outcome (r.feed m token) s).andThen fun m' =>
            outcome (r.resume tokens m'.uncounted) := by rw [resume_cons, outcome_bind, ← hnext]
      _ = ((outcome (r.feed m token) s).map Machine.uncounted).andThen fun m' =>
            outcome (r.resume tokens m') := by rw [Outcome.andThen_map]
      _ = ((outcome (r.feed m.uncounted token) s).map Machine.uncounted).andThen fun m' =>
            outcome (r.resume tokens m') := by rw [outcome_feed_uncounted hlimit]
      _ = (outcome (r.feed m.uncounted token) s).andThen fun m' =>
            outcome (r.resume tokens m'.uncounted) := by rw [Outcome.andThen_map]
      _ = outcome (r.resume (token :: tokens) m.uncounted) s := by
          rw [resume_cons, outcome_bind, ← hnext]

theorem outcome_run_append_of_leads {first : Asm} {stack : Stack}
    (h : r.Leads first (.ready stack 0) s m' s' calls) (second : Asm) :
    outcome (r.run (first ++ second) stack) s =
      (outcome (r.resume second m'.uncounted) s').after calls := by
  rw [run_append_eq_bind, outcome_bind_of_yields h, outcome_resume_uncounted hlimit]

/-- Behind a script that ends in a push the first token is its data, and the rest goes on
from there. -/
theorem outcome_run_append_of_pending {first : Asm} {stack : Stack} {push : Push}
    (h : r.Leads first (.ready stack 0) s m' s' calls) (hpending : m'.pending = some push)
    (data : String) (rest : Asm) :
    outcome (r.run (first ++ data :: rest) stack) s =
      match push.value data with
      | .error e => { result := .error e, state := s', calls }
      | .ok value => (outcome (r.run rest (value :: m'.stack)) s').after calls := by
  have hwaits : m'.uncounted.pending = some push := hpending
  have hstack : m'.uncounted.stack = m'.stack := rfl
  rw [outcome_run_append_of_leads hlimit h, resume_cons, feed, hwaits, outcome_bind]
  simp only [outcome_bind, outcome_liftExcept]
  cases push.value data with
  | error e =>
    have hcalls : calls ++ [] = calls := List.append_nil calls
    exact congrArg (Outcome.mk _ _) hcalls
  | ok value => rfl

theorem outcome_run_append_of_yields {first : Asm} {stack stack' : Stack}
    (h : Yields (r.run first stack) s stack' s' calls) (second : Asm) :
    outcome (r.run (first ++ second) stack) s =
      (outcome (r.run second stack') s').after calls := by
  obtain ⟨steps, hlead⟩ := yields_run.mp h
  rw [outcome_run_append_of_leads hlimit hlead, Machine.uncounted_ready, run_eq_resume]

end Unlimited

/-- A script that fails by one of its tokens does so whatever stands behind it. -/
theorem outcome_run_append_of_fails {first : Asm} {stack : Stack} {e : ScriptError}
    (h : Fails (r.run first stack) s e) (hne : ∀ op, e ≠ .missingPushData op) (second : Asm) :
    outcome (r.run (first ++ second) stack) s = outcome (r.run first stack) s := by
  rw [run_eq_resume, resume, fails_bind] at h
  cases h with
  | inl hfold =>
    have halone := outcome_bind_of_fails hfold fun m => liftExcept m.finish
    rw [run_append_eq_bind, outcome_bind_of_fails hfold, run_eq_resume, resume, halone]
  | inr hends =>
    obtain ⟨m, _, _, -, hfinish⟩ := hends
    obtain ⟨push, -, he⟩ := Machine.finish_eq_error.mp (fails_liftExcept.mp hfinish)
    exact absurd he (hne push.opcode)

/-- A script that lacks the data of a push leads to a machine that waits for it. -/
theorem leads_of_missingPushData {first : Asm} {stack : Stack} {op : Opcode}
    (h : outcome (r.run first stack) s =
      { result := .error (.missingPushData op), state := s', calls }) :
    ∃ (m : Machine) (push : Push), r.Leads first (.ready stack 0) s m s' calls ∧
      m.pending = some push ∧ op = push.opcode := by
  have hfails : Fails (r.run first stack) s (.missingPushData op) := by rw [Fails, h]
  rw [run_eq_resume, resume, fails_bind] at hfails
  cases hfails with
  | inl hfold => exact absurd hfold not_fails_foldlM_missingPushData
  | inr hends =>
    obtain ⟨m, s₁, c₁, hlead, hfinish⟩ := hends
    obtain ⟨push, hpending, he⟩ := Machine.finish_eq_error.mp (fails_liftExcept.mp hfinish)
    have hrun : outcome (r.run first stack) s =
        (outcome (liftExcept m.finish) s₁).after c₁ := outcome_bind_of_yields hlead _
    rw [outcome_liftExcept, h] at hrun
    obtain ⟨-, hstate, hcalls⟩ := Outcome.mk.inj hrun
    rw [List.append_nil] at hcalls
    rw [hstate, hcalls]
    exact ⟨m, push, hlead, hpending, ScriptError.missingPushData.inj he⟩

/-- What the run of a script says about its run in front of another one.  The second script
goes on in the session that the first one leaves, which is of no account where the verifier
has no history. -/
theorem outcome_run_append (hlimit : r.limit = none) (first : Asm) (stack : Stack)
    (s s' : Session tx) (calls : List Call) :
    (∀ stack', outcome (r.run first stack) s = { result := .ok stack', state := s', calls } →
      ∀ second, outcome (r.run (first ++ second) stack) s =
          (outcome (r.run second stack') s').after calls ∧
        (r.verifier.HistoryFree → ∀ t : Session tx,
          (outcome (r.run (first ++ second) stack) s).result =
            (outcome (r.run second stack') t).result ∧
          (outcome (r.run (first ++ second) stack) s).calls =
            calls ++ (outcome (r.run second stack') t).calls)) ∧
    (∀ e, outcome (r.run first stack) s = { result := .error e, state := s', calls } →
      (∀ op, e ≠ .missingPushData op) →
      ∀ second, outcome (r.run (first ++ second) stack) s =
        { result := .error e, state := s', calls }) ∧
    (∀ op, outcome (r.run first stack) s =
        { result := .error (.missingPushData op), state := s', calls } →
      ∃ before token, ∃ push : Push, ∃ below, first = before ++ [token] ∧
        Opcode.parse token = .ok op ∧ op = push.opcode ∧
        outcome (r.run before stack) s = { result := .ok below, state := s', calls } ∧
        ∀ data rest, outcome (r.run (first ++ data :: rest) stack) s =
          match push.value data with
          | .error e => { result := .error e, state := s', calls }
          | .ok value => (outcome (r.run rest (value :: below)) s').after calls) := by
  refine ⟨?success, ?failure, ?missing⟩
  case success =>
    intro stack' hfirst second
    have happend := outcome_run_append_of_yields hlimit hfirst second
    refine ⟨happend, ?_⟩
    intro hfree t
    have hagree : (outcome (r.run second stack') s').result =
          (outcome (r.run second stack') t).result ∧
        (outcome (r.run second stack') s').calls = (outcome (r.run second stack') t).calls :=
      agree_run hfree rfl rfl second stack' s' t
    rw [happend]
    exact ⟨hagree.1, congrArg (calls ++ ·) hagree.2⟩
  case failure =>
    intro e hfirst hne second
    have hfails : Fails (r.run first stack) s e := by rw [Fails, hfirst]
    rw [outcome_run_append_of_fails hfails hne, hfirst]
  case missing =>
    intro op hfirst
    obtain ⟨m, push, hlead, hpending, hop⟩ := leads_of_missingPushData hfirst
    obtain ⟨before, token, htokens, hparse, hbefore⟩ := push_of_leads_pending hlead hpending
    rw [← hop] at hparse
    exact ⟨before, token, push, m.stack, htokens, hparse, hop, hbefore,
      outcome_run_append_of_pending hlimit hlead hpending⟩

/-- A run for the first input under a verifier that approves of everything. -/
def approving : Runner where
  verifier := .ofPredicate fun _ _ _ => true
  inputIndex := 0
  limit := none

/-- What a script comes to in such a run. -/
def approved (script : Asm) (stack : Stack) : Except ScriptError Stack :=
  (outcome (approving.run script stack) (Session.fresh : Session Session.twoRegimes)).result

/-- A signature check in front of a comparison, a failure in front of data, and a push that
takes an opcode for its data. -/
theorem outcome_run_append_approved :
    approved (["OP_CHECKSIG"] ++ ["OP_EQUAL"]) [.bytes [2], .bytes [1], .bool true] =
      .ok [.bool true] ∧
    approved (["OP_DUP"] ++ ["51"]) [] = .error .stackUnderflow ∧
    approved (["51", "OP_PUSHBYTES_1"] ++ ["OP_DUP", "OP_EQUAL"]) [] =
      .error (.nonHexPushData "OP_DUP") := by
  refine ⟨?_, ?_, ?_⟩
  · have hfirst : approved ["OP_CHECKSIG"] [.bytes [2], .bytes [1], .bool true] =
        .ok [.bool true, .bool true] := by decide +kernel
    have happend := (outcome_run_append rfl ["OP_CHECKSIG"] _ _ _ _).1 _ (yields_of_result hfirst)
      ["OP_EQUAL"]
    have hsame := (happend.2 (Verifier.historyFree_ofPredicate _) Session.fresh).1
    have hsecond : approved ["OP_EQUAL"] [.bool true, .bool true] = .ok [.bool true] := rfl
    exact hsame.trans hsecond
  · have hfirst : approved ["OP_DUP"] [] = .error .stackUnderflow := rfl
    have happend := (outcome_run_append rfl ["OP_DUP"] _ _ _ _).2.1 _ (outcome_of_fails hfirst)
      nofun ["51"]
    rw [approved, happend]
  · have hfirst : approved ["51", "OP_PUSHBYTES_1"] [] =
        .error (.missingPushData (.pushBytes 1)) := rfl
    obtain ⟨_, _, push, _, -, -, hop, -, hdata⟩ :=
      (outcome_run_append rfl ["51", "OP_PUSHBYTES_1"] _ _ _ _).2.2 _ (outcome_of_fails hfirst)
    have hpush : push = .exactly 1 := by cases push <;> simp_all [Push.opcode]
    rw [approved, hdata, hpush]
    rfl

end Runner
end SpendCheck
