import SpendCheck.Proofs.Script.Limit
import SpendCheck.Proofs.Validation.Whole

/-!
# Tighter configurations

A configuration is tightened by refusing taproot inputs, by a lower step limit, or by both.
Inputs then come out as before or fail.  A transaction may come to an end in another way
altogether: an input that stopped its judgement may fail at the limit before it gets that
far, and inputs behind it are judged that nothing was said about before.  None of this lets
a transaction through that was held back.
-/

namespace SpendCheck

open Exec

/-- The one configuration asks for all that the other one asks for. -/
structure Config.Tightens (strict loose : Config) : Prop where
  taproot : strict.taproot = loose.taproot ∨ strict.taproot = .reject
  maxSteps : ∀ limit, loose.maxSteps = some limit →
    ∃ lower, strict.maxSteps = some lower ∧ lower ≤ limit

/-- What a configuration may make of a verdict that is given under a looser one. -/
def Config.Lowers (strict : Config) (old new : Verdict) : Prop :=
  new = old ∨
  (old = .unverified ∧ strict.taproot = .reject ∧ new = .invalid .unverifiedTaproot) ∨
  ∃ limit, strict.maxSteps = some limit ∧
    new = .invalid (.script (.stepLimitExceeded limit.toNat))

namespace Validator

variable {v : Validator} {strict loose : Config} {tx : Transaction} {index : Nat}

/-- The validator, under a configuration of its own. -/
def under (v : Validator) (config : Config) : Validator := { v with config }

/-- What an input comes to when it is judged, if it can be put together at all, which is
the same for all validators. -/
theorem value_checkInput_cases (tx : Transaction) (index : Nat) :
    (∃ e, ∀ v : Validator, (v.checkInput tx index).value = .error e) ∨
    ∃ name program, ∀ v : Validator, (v.checkInput tx index).value =
      (outcome (v.judge name program) (Session.fresh : Session tx)).result.map fun verdict =>
        { index, template := program.template, verdict } := by
  cases hinput : tx.input index with
  | error e =>
    refine .inl ⟨.txData e, fun v => ?_⟩
    rw [value_checkInput, evaluate, outcome_bind, outcome_liftExcept, hinput]
    rfl
  | ok i =>
    cases hprogram : Program.ofInput i with
    | error e =>
      refine .inl ⟨.unsupportedTemplate (inputName tx index i) e, fun v => ?_⟩
      rw [value_checkInput, evaluate, outcome_bind, outcome_liftExcept, hinput]
      simp only [Except.mapError, Outcome.andThen, outcome_bind, outcome_liftExcept, hprogram]
    | ok program =>
      refine .inr ⟨inputName tx index i, program, fun v => ?_⟩
      rw [value_checkInput, evaluate, outcome_bind, outcome_liftExcept, hinput]
      simp only [Except.mapError, Outcome.andThen, outcome_bind, outcome_liftExcept, hprogram]
      cases hjudged : outcome (v.judge (inputName tx index i) program) Session.fresh with
      | mk result s' calls =>
        cases result with
        | error e => rfl
        | ok verdict => cases verdict <;> rfl

theorem result_judge {name : InputName} {program : Program} {s : Session tx} :
    (outcome (v.judge name program) s).result =
      if program.template.isVerifiable then
        verdictOf name (outcome ((v.runner name.index).run program.script program.stack) s).result
      else .ok (v.judgeTaproot name).value := by
  cases hverifiable : program.template.isVerifiable with
  | true =>
    rw [judge, if_pos hverifiable, outcome_judgeProgram]
    rfl
  | false =>
    rw [judge, hverifiable, if_neg Bool.false_ne_true, outcome_traced]
    rfl

theorem value_judgeTaproot {name : InputName} : (v.judgeTaproot name).value =
    match v.config.taproot with
    | .unverified => .unverified
    | .reject => .invalid .unverifiedTaproot := by
  rw [judgeTaproot]
  cases v.config.taproot <;> rfl

theorem verdictOf_ne_unverified {name : InputName} {result : Except ScriptError Stack} :
    verdictOf name result ≠ .ok .unverified := by
  cases result with
  | error e => cases e <;> simp [verdictOf]
  | ok stack => cases haccept : stack.accept <;> simp [verdictOf, haccept]

/-- An input that is refused without being evaluated is not let through as unverified. -/
theorem ne_unverified_of_reject (hreject : v.config.taproot = .reject) {report : InputReport}
    (h : (v.checkInput tx index).value = .ok report) : report.verdict ≠ .unverified := by
  obtain ⟨e, herror⟩ | ⟨name, program, hvalue⟩ := value_checkInput_cases tx index
  · cases (herror v).symm.trans h
  · rw [hvalue, result_judge, value_judgeTaproot, hreject] at h
    obtain ⟨verdict, hverdict, rfl⟩ := map_eq_ok.mp h
    rintro rfl
    split at hverdict
    · exact verdictOf_ne_unverified hverdict
    · cases hverdict

section Tightens

variable (h : strict.Tightens loose)

include h

theorem runner_of_unlimited (hstrict : strict.maxSteps = none) (index : Nat) :
    (v.under strict).runner index = (v.under loose).runner index := by
  have hloose : loose.maxSteps = none := by
    by_contra hsome
    obtain ⟨limit, hlimit⟩ := Option.ne_none_iff_exists'.mp hsome
    obtain ⟨lower, hlower, -⟩ := h.maxSteps limit hlimit
    cases hstrict.symm.trans hlower
  simp only [runner, under, hstrict, hloose]

theorem runner_of_limited {limit : UInt64} (hstrict : strict.maxSteps = some limit)
    (index : Nat) :
    (v.under strict).runner index = ((v.under loose).runner index).limited limit.toNat ∧
      ((v.under loose).runner index).Allows limit.toNat := by
  constructor
  · simp only [runner, under, Runner.limited, hstrict, Option.map_some]
  · intro most hmost
    obtain ⟨larger, hlarger, rfl⟩ := Option.map_eq_some_iff.mp hmost
    obtain ⟨lower, hlower, hle⟩ := h.maxSteps larger hlarger
    obtain rfl := Option.some.inj (hstrict.symm.trans hlower)
    exact UInt64.le_iff_toNat_le.mp hle

/-- The tighter configuration changes the verdict on a program for one of two reasons. -/
theorem result_judge_of_tightens (name : InputName) (program : Program) (s : Session tx) :
    (outcome ((v.under strict).judge name program) s).result =
        (outcome ((v.under loose).judge name program) s).result ∨
    ((outcome ((v.under loose).judge name program) s).result = .ok .unverified ∧
      strict.taproot = .reject ∧
      (outcome ((v.under strict).judge name program) s).result =
        .ok (.invalid .unverifiedTaproot)) ∨
    ∃ limit, strict.maxSteps = some limit ∧
      (outcome ((v.under strict).judge name program) s).result =
        .ok (.invalid (.script (.stepLimitExceeded limit.toNat))) := by
  rw [result_judge, result_judge]
  cases program.template.isVerifiable with
  | false =>
    rw [value_judgeTaproot, value_judgeTaproot]
    simp only [under, Bool.false_eq_true, if_false]
    obtain hsame | hreject := h.taproot
    · exact .inl (by rw [hsame])
    · rw [hreject]
      cases loose.taproot with
      | unverified => exact .inr (.inl ⟨rfl, rfl, rfl⟩)
      | reject => exact .inl rfl
  | true =>
    simp only [if_true]
    cases hstrict : strict.maxSteps with
    | none => exact .inl (by rw [runner_of_unlimited h hstrict])
    | some limit =>
      obtain ⟨hrunner, hallows⟩ := runner_of_limited (v := v) h hstrict name.index
      rw [hrunner]
      obtain hreached | hsame :=
        Runner.result_run_limited hallows program.script program.stack s
      · exact .inr (.inr ⟨limit, rfl, by rw [hreached]; rfl⟩)
      · exact .inl (by rw [hsame])

/-- An input that is reported on is reported on under the tighter configuration too. -/
theorem report_of_tightens {report : InputReport}
    (hloose : ((v.under loose).checkInput tx index).value = .ok report) :
    ∃ report', ((v.under strict).checkInput tx index).value = .ok report' ∧
      report'.index = report.index ∧ report'.template = report.template ∧
      strict.Lowers report.verdict report'.verdict := by
  obtain ⟨e, herror⟩ | ⟨name, program, hvalue⟩ := value_checkInput_cases tx index
  · cases (herror _).symm.trans hloose
  · rw [hvalue] at hloose
    obtain ⟨verdict, hverdict, rfl⟩ := map_eq_ok.mp hloose
    have hreport : ∀ new, (outcome ((v.under strict).judge name program)
        (Session.fresh : Session tx)).result = .ok new →
        ((v.under strict).checkInput tx index).value =
          .ok { index, template := program.template, verdict := new } := by
      intro new hnew
      rw [hvalue, hnew]
      rfl
    obtain hsame | ⟨hunverified, hreject, hrefused⟩ | ⟨limit, hlimit, hreached⟩ :=
      result_judge_of_tightens (v := v) h name program (Session.fresh : Session tx)
    · exact ⟨_, hreport verdict (hsame.trans hverdict), rfl, rfl, .inl rfl⟩
    · obtain rfl := Except.ok.inj (hunverified.symm.trans hverdict)
      exact ⟨_, hreport _ hrefused, rfl, rfl, .inr (.inl ⟨rfl, hreject, rfl⟩)⟩
    · exact ⟨_, hreport _ hreached, rfl, rfl, .inr (.inr ⟨limit, hlimit, rfl⟩)⟩

/-- An input that passes under the tighter configuration has the same report under the
looser one. -/
theorem checkInput_of_passed {report : InputReport}
    (hstrict : ((v.under strict).checkInput tx index).value = .ok report)
    (hpassed : report.verdict.passed = true) :
    ((v.under loose).checkInput tx index).value = .ok report := by
  obtain ⟨e, herror⟩ | ⟨name, program, hvalue⟩ := value_checkInput_cases tx index
  · cases (herror _).symm.trans hstrict
  · rw [hvalue] at hstrict ⊢
    obtain hsame | ⟨-, -, hrefused⟩ | ⟨limit, -, hreached⟩ :=
      result_judge_of_tightens (v := v) h name program (Session.fresh : Session tx)
    · rw [← hsame]
      exact hstrict
    · rw [hrefused] at hstrict
      obtain rfl := Except.ok.inj hstrict
      cases hpassed
    · rw [hreached] at hstrict
      obtain rfl := Except.ok.inj hstrict
      cases hpassed

end Tightens

/-- What each entry of a list leads to can be collected in a list. -/
theorem exists_forall₂_of_forall₂ {α β γ : Type} {R : α → β → Prop} {S : α → γ → Prop}
    {T : β → γ → Prop} (hstep : ∀ a b, R a b → ∃ c, S a c ∧ T b c) {as : List α} {bs : List β}
    (h : List.Forall₂ R as bs) : ∃ cs, List.Forall₂ S as cs ∧ List.Forall₂ T bs cs := by
  induction h with
  | nil => exact ⟨[], .nil, .nil⟩
  | @cons a b as bs hhead _ ih =>
    obtain ⟨c, hfirst, hsecond⟩ := hstep a b hhead
    obtain ⟨cs, hfirsts, hseconds⟩ := ih
    exact ⟨c :: cs, .cons hfirst hfirsts, .cons hsecond hseconds⟩

/-- Under a tighter configuration a transaction with a report has a report on the same
inputs, in which verdicts are the same or lower, and one without is not let through.  So
less is let through, and where taproot inputs are refused nothing that was not verified. -/
theorem check_under_tighter (hfree : v.verifier.HistoryFree) (h : strict.Tightens loose)
    (tx : Transaction) :
    (∀ report, ((v.under loose).check tx).value = .ok report →
      ∃ report', ((v.under strict).check tx).value = .ok report' ∧
        List.Forall₂ (fun old new : InputReport => new.index = old.index ∧
          new.template = old.template ∧ strict.Lowers old.verdict new.verdict)
          report.inputs report'.inputs) ∧
    (∀ error, ((v.under loose).check tx).value = .error error →
      ((v.under strict).validate tx).value = false) ∧
    (((v.under strict).validate tx).value = true → ((v.under loose).validate tx).value = true) ∧
    (strict.taproot = .reject → ((v.under strict).validate tx).value = true →
      ∃ report, ((v.under loose).check tx).value = .ok report ∧ report.hasUnverified = false) := by
  have hstrictFree : (v.under strict).verifier.HistoryFree := hfree
  have hlooseFree : (v.under loose).verifier.HistoryFree := hfree
  refine ⟨?report, ?error, ?valid, ?verified⟩
  case report =>
    intro report hreport
    have hreports := (check_eq_ok hlooseFree).mp hreport
    obtain ⟨inputs, hinputs, hlowered⟩ :=
      exists_forall₂_of_forall₂ (fun _ _ hr => report_of_tightens h hr) hreports
    exact ⟨{ inputs }, (check_eq_ok hstrictFree).mpr hinputs, hlowered⟩
  case error =>
    intro error herror
    obtain ⟨index, hindex, -, hstops⟩ := (check_eq_error hlooseFree).mp herror
    by_contra hvalid
    obtain ⟨report, hreport, hpassed⟩ :=
      (validate_eq_true hstrictFree).mp (Bool.eq_true_of_not_eq_false hvalid) index hindex
    cases (checkInput_of_passed h hreport hpassed).symm.trans hstops
  case valid =>
    intro hvalid
    rw [validate_eq_true hlooseFree]
    intro index hindex
    obtain ⟨report, hreport, hpassed⟩ := (validate_eq_true hstrictFree).mp hvalid index hindex
    exact ⟨report, checkInput_of_passed h hreport hpassed, hpassed⟩
  case verified =>
    intro hreject hvalid
    have hjudged := (validate_eq_true hstrictFree).mp hvalid
    obtain ⟨report, hreport⟩ := (exists_check_eq_ok hlooseFree).mpr fun index hindex => by
      obtain ⟨r, hr, hpassed⟩ := hjudged index hindex
      exact ⟨r, checkInput_of_passed h hr hpassed⟩
    refine ⟨report, hreport, ?_⟩
    obtain ⟨hlength, hget⟩ := reports_iff.mp ((check_eq_ok hlooseFree).mp hreport)
    rw [Report.hasUnverified, List.any_eq_false]
    intro entry hentry
    obtain ⟨index, hindex⟩ := List.mem_iff_getElem?.mp hentry
    obtain ⟨hlt, -⟩ := List.getElem?_eq_some_iff.mp hindex
    obtain ⟨found, hfound, hloose⟩ := hget index (hlength ▸ hlt)
    obtain rfl := Option.some.inj (hindex.symm.trans hfound)
    obtain ⟨r, hr, hpassed⟩ := hjudged index (hlength ▸ hlt)
    obtain rfl := Except.ok.inj (hloose.symm.trans (checkInput_of_passed h hr hpassed))
    simpa using ne_unverified_of_reject hreject hr

/-- Refuses taproot inputs, and scripts of more than two opcodes. -/
def cautious : Config := { taproot := .reject, maxSteps := some 2 }

/-- A comparison that holds, and an input that is not evaluated. -/
def comparedPartly : Transaction :=
  .ofInputs [{ Input.spending .p2pkh "OP_EQUAL" with scriptSigAsm := "01 01" },
    Input.spending .v1P2tr ""]

/-- An input with a witness that its type has no use for. -/
def misplacedWitness : Input :=
  { Input.spending .p2pkh "OP_CHECKSIG" with
    scriptSigAsm := "01 02"
    witness := some [] }

/-- The input fails at the limit in front of the check that would stop its judgement. -/
theorem check_under_tighter_cautious :
    (∃ report, ((trusting.under cautious).check comparedPartly).value = .ok report ∧
      List.Forall₂ (fun old new : InputReport => new.index = old.index ∧
        new.template = old.template ∧ cautious.Lowers old.verdict new.verdict)
        [⟨0, .p2pkh, .valid⟩, ⟨1, .taproot, .unverified⟩] report.inputs) ∧
    ((trusting.under cautious).validate (.ofInputs [misplacedWitness])).value = false ∧
    ((trusting.under cautious).check (.ofInputs [misplacedWitness])).value =
      .ok { inputs := [⟨0, .p2pkh, .invalid (.script (.stepLimitExceeded 2))⟩] } := by
  have hfree : trusting.verifier.HistoryFree := Verifier.historyFree_ofPredicate _
  have htightens : cautious.Tightens {} := ⟨.inr rfl, nofun⟩
  have hreport : ((trusting.under {}).check comparedPartly).value =
      .ok { inputs := [⟨0, .p2pkh, .valid⟩, ⟨1, .taproot, .unverified⟩] } := rfl
  have herror : ((trusting.under {}).check (.ofInputs [misplacedWitness])).value =
      .error (.unsupportedRegime
        (inputName (.ofInputs [misplacedWitness]) 0 misplacedWitness)
        (.unsupportedRegime .segwit .p2pkh)) := rfl
  exact ⟨(check_under_tighter hfree htightens _).1 _ hreport,
    (check_under_tighter hfree htightens _).2.1 _ herror, rfl⟩

end Validator
end SpendCheck
