import SpendCheck.Proofs.Script.Failure
import SpendCheck.Proofs.Spend.Template
import SpendCheck.Validation.Check

/-!
# Accepted inputs

An input is accepted when its report says that it is valid.  `accepts_iff` turns this
into a statement about the machine: the program of the input leads to a stack that
holds something, and nothing but the outcome `true`.
-/

namespace SpendCheck

open Exec

theorem Program.ofInput_eq_ok {i : Input} {program : Program} :
    Program.ofInput i = .ok program ↔
      ∃ template script, template.Fits i ∧ scriptOf i template = .ok script ∧
        program = { template, script, stack := stackOf i template } := by
  simp only [ofInput, bind_eq_ok, pure_eq_ok, Template.classify_eq_ok]
  constructor
  · intro h
    rcases h with ⟨template, hfits, script, hscript, rfl⟩
    exact ⟨template, script, hfits, hscript, rfl⟩
  · intro h
    rcases h with ⟨template, script, hfits, hscript, rfl⟩
    exact ⟨template, hfits, script, hscript, rfl⟩

/-- What a stack has to be for an input to pass. -/
def Stack.AllTrue (stack : Stack) : Prop := stack ≠ [] ∧ ∀ value ∈ stack, value = .bool true

theorem Stack.allTrue_cons {value : StackValue} {stack : Stack} :
    AllTrue (value :: stack) ↔ value = .bool true ∧ ∀ below ∈ stack, below = .bool true := by
  simp [AllTrue]

theorem Stack.AllTrue.top {value : StackValue} {stack : Stack} (h : AllTrue (value :: stack)) :
    value = .bool true := (allTrue_cons.mp h).1

theorem StackValue.isTrue_iff {value : StackValue} : value.isTrue = true ↔ value = .bool true := by
  cases value <;> simp [isTrue]

theorem Stack.accept_eq_ok {stack : Stack} : stack.accept = .ok () ↔ stack.AllTrue := by
  cases stack with
  | nil => simp [accept, AllTrue, bottomFirst]
  | cons top below =>
    have hne : (bottomFirst (top :: below)).isEmpty = false := by simp [bottomFirst]
    have hmem : ∀ value, value ∈ bottomFirst (top :: below) ↔ value ∈ top :: below :=
      fun value => List.mem_reverse
    simp only [accept, hne, Bool.false_eq_true, if_false]
    cases hfound : List.find? _ (bottomFirst (top :: below)).zipIdx with
    | none =>
      have hall : AllTrue (top :: below) := by
        refine ⟨List.cons_ne_nil top below, ?_⟩
        intro value hvalue
        obtain ⟨position, hposition⟩ := List.mem_iff_getElem?.mp ((hmem value).mpr hvalue)
        have hentry : (value, position) ∈ (bottomFirst (top :: below)).zipIdx :=
          List.mk_mem_zipIdx_iff_getElem?.mpr hposition
        have htrue := List.find?_eq_none.mp hfound (value, position) hentry
        exact StackValue.isTrue_iff.mp (by simpa using htrue)
      simp [hall]
    | some found =>
      have hnot : ¬ AllTrue (top :: below) := by
        intro hall
        have hentry := List.mem_of_find?_eq_some hfound
        have hvalue := hall.2 found.1 ((hmem found.1).mp (List.fst_mem_of_mem_zipIdx hentry))
        have hfalse := List.find?_some hfound
        simp [StackValue.isTrue_iff.mpr hvalue] at hfalse
      simp [hnot]

namespace Validator

variable {tx : Transaction} {v : Validator} {index : Nat}

theorem allows_of_unlimited (hlimit : v.config.maxSteps = none) (index steps : Nat) :
    (v.runner index).Allows steps := by
  intro limit hsome
  simp [runner, hlimit] at hsome

/-- The input at the index is reported as valid. -/
def Accepts (v : Validator) (tx : Transaction) (index : Nat) : Prop :=
  ∃ report, (v.checkInput tx index).value = .ok report ∧ report.verdict = .valid

instance (v : Validator) (tx : Transaction) (index : Nat) : Decidable (v.Accepts tx index) :=
  match h : (v.checkInput tx index).value with
  | .ok report => decidable_of_iff (report.verdict = .valid) (by simp [Accepts, h])
  | .error error => isFalse (by simp [Accepts, h])

/-- A validator that approves of every signature, under the usual configuration. -/
def trusting : Validator where
  verifier := Verifier.ofPredicate fun _ _ _ => true
  config := {}

theorem value_checkInput :
    (v.checkInput tx index).value =
      (outcome (v.evaluate index) (Session.fresh : Session tx)).result := rfl

theorem callsOf_checkInput :
    callsOf (v.checkInput tx index).trace =
      (outcome (v.evaluate index) (Session.fresh : Session tx)).calls := by
  show callsOf (_ ++ []) = _
  rw [List.append_nil]
  rfl

theorem outcome_judgeProgram {name : InputName} {program : Program} {s : Session tx} :
    outcome (v.judgeProgram name program) s =
      let o := outcome ((v.runner name.index).run program.script program.stack) s
      { result := verdictOf name o.result, state := o.state, calls := o.calls } := by
  show Outcome.mk _ _ (callsOf (_ ++ [])) = _
  rw [List.append_nil]
  rfl

theorem outcome_evaluate {i : Input} {program : Program} (hi : tx.inputs[index]? = some i)
    (hprogram : Program.ofInput i = .ok program)
    (hverifiable : program.template.isVerifiable = true) (s : Session tx) :
    outcome (v.evaluate index) s =
      let o := outcome ((v.runner index).run program.script program.stack) s
      { result := (verdictOf (inputName tx index i) o.result).map fun verdict =>
          { index, template := program.template, verdict }
        state := o.state
        calls := o.calls } := by
  have hinput : tx.input index = .ok i := Transaction.input_eq_ok.mpr hi
  rw [evaluate, outcome_bind, outcome_liftExcept, hinput]
  simp only [Except.mapError, Outcome.andThen, List.nil_append]
  rw [outcome_bind, outcome_liftExcept, hprogram]
  simp only [Outcome.andThen, List.nil_append, judge, hverifiable, if_true]
  have hindex : (inputName tx index i).index = index := rfl
  rw [outcome_bind, outcome_judgeProgram, hindex]
  obtain ⟨result, s', calls⟩ := outcome ((v.runner index).run program.script program.stack) s
  simp only
  cases verdictOf (inputName tx index i) result with
  | error e => rfl
  | ok verdict =>
    -- The record about an invalid input is no call.
    have hcalls : calls ++ [] = calls := List.append_nil calls
    cases verdict <;> exact congrArg (Outcome.mk _ _) hcalls

theorem verdictOf_eq_valid {name : InputName} {result : Except ScriptError Stack} :
    verdictOf name result = .ok .valid ↔ ∃ stack, result = .ok stack ∧ stack.AllTrue := by
  cases result with
  | error e => cases e <;> simp [verdictOf]
  | ok stack =>
    simp only [Except.ok.injEq, exists_eq_left', ← Stack.accept_eq_ok]
    cases haccept : stack.accept <;> simp [verdictOf, haccept]

theorem accepts_of_value {report : InputReport}
    (h : (v.checkInput tx index).value = .ok report) :
    v.Accepts tx index ↔ report.verdict = .valid := by
  simp [Accepts, h]

section Program

variable {i : Input} {program : Program}

/-- What an input with a program has to do to be accepted, and with which calls. -/
theorem accepts_iff (hi : tx.inputs[index]? = some i)
    (hprogram : Program.ofInput i = .ok program)
    (hverifiable : program.template.isVerifiable = true) {calls : List Call} :
    v.Accepts tx index ∧ callsOf (v.checkInput tx index).trace = calls ↔
      ∃ stack steps s', (v.runner index).Leads program.script (.ready program.stack 0)
        (Session.fresh : Session tx) (.ready stack steps) s' calls ∧ stack.AllTrue := by
  have houtcome := outcome_evaluate (v := v) hi hprogram hverifiable Session.fresh
  have hvalid : v.Accepts tx index ↔ verdictOf (inputName tx index i)
      (outcome ((v.runner index).run program.script program.stack)
        (Session.fresh : Session tx)).result = .ok .valid := by
    rw [Accepts, value_checkInput, houtcome]
    simp only
    cases verdictOf (inputName tx index i) _ <;> simp [Except.map]
  rw [hvalid, verdictOf_eq_valid, callsOf_checkInput, houtcome]
  constructor
  · intro h
    rcases h with ⟨⟨stack, hresult, htrue⟩, rfl⟩
    obtain ⟨steps, hlead⟩ := Runner.yields_run.mp (yields_of_result hresult)
    exact ⟨stack, steps, _, hlead, htrue⟩
  · intro h
    rcases h with ⟨stack, steps, s', hlead, htrue⟩
    have hyields := Runner.yields_run.mpr ⟨steps, hlead⟩
    rw [Yields] at hyields
    rw [hyields]
    exact ⟨⟨stack, rfl, htrue⟩, rfl⟩

theorem accepts_iff_leads (hi : tx.inputs[index]? = some i)
    (hprogram : Program.ofInput i = .ok program)
    (hverifiable : program.template.isVerifiable = true) :
    v.Accepts tx index ↔
      ∃ stack steps s' calls, (v.runner index).Leads program.script (.ready program.stack 0)
        (Session.fresh : Session tx) (.ready stack steps) s' calls ∧ stack.AllTrue := by
  constructor
  · intro h
    obtain ⟨stack, steps, s', hlead⟩ := (accepts_iff hi hprogram hverifiable).mp ⟨h, rfl⟩
    exact ⟨stack, steps, s', _, hlead⟩
  · intro h
    obtain ⟨stack, steps, s', calls, hlead⟩ := h
    exact ((accepts_iff hi hprogram hverifiable).mpr ⟨stack, steps, s', hlead⟩).1

/-- An input is reported on where nothing that its signatures commit to is lacking. -/
theorem exists_report (hi : tx.inputs[index]? = some i)
    (hprogram : Program.ofInput i = .ok program)
    (hverifiable : program.template.isVerifiable = true) (hlacks : ∀ e, ¬ tx.Lacks index e) :
    ∃ verdict, (v.checkInput tx index).value =
      .ok { index, template := program.template, verdict } := by
  rw [value_checkInput, outcome_evaluate hi hprogram hverifiable]
  have hverdict : ∃ verdict, verdictOf (inputName tx index i)
      (outcome ((v.runner index).run program.script program.stack)
        (Session.fresh : Session tx)).result = .ok verdict := by
    cases hresult : (outcome ((v.runner index).run program.script program.stack)
        (Session.fresh : Session tx)).result with
    | ok stack =>
      cases haccept : stack.accept with
      | ok u => exact ⟨.valid, by simp [verdictOf, haccept]⟩
      | error error => exact ⟨.invalid error, by simp [verdictOf, haccept]⟩
    | error error =>
      cases error with
      | context e => exact absurd (Runner.lacks_of_fails_run hresult) (hlacks e)
      | _ => exact ⟨_, rfl⟩
  obtain ⟨verdict, hverdict⟩ := hverdict
  exact ⟨verdict, by simp [hverdict, Except.map]⟩

/-- The program of an input is judged by the stack it leaves. -/
theorem report_of_leads {stack : Stack} {steps : Nat} {s' : Session tx} {calls : List Call}
    (hi : tx.inputs[index]? = some i) (hprogram : Program.ofInput i = .ok program)
    (hverifiable : program.template.isVerifiable = true)
    (hlead : (v.runner index).Leads program.script (.ready program.stack 0) Session.fresh
      (.ready stack steps) s' calls) :
    ∃ verdict, (v.checkInput tx index).value =
        .ok { index, template := program.template, verdict } ∧
      callsOf (v.checkInput tx index).trace = calls ∧ (verdict = .valid ↔ stack.AllTrue) := by
  have hrun : outcome ((v.runner index).run program.script program.stack) Session.fresh =
      { result := .ok stack, state := s', calls } := Runner.yields_run.mpr ⟨steps, hlead⟩
  obtain ⟨verdict, hverdict⟩ :
      ∃ verdict, verdictOf (inputName tx index i) (.ok stack) = .ok verdict := by
    cases haccept : stack.accept with
    | ok u => exact ⟨.valid, by simp [verdictOf, haccept]⟩
    | error error => exact ⟨.invalid error, by simp [verdictOf, haccept]⟩
  have hvalid : verdict = .valid ↔ stack.AllTrue := by
    have hiff : verdictOf (inputName tx index i) (.ok stack) = .ok .valid ↔ _ :=
      verdictOf_eq_valid
    rw [hverdict] at hiff
    simpa using hiff
  refine ⟨verdict, ?_, ?_, hvalid⟩
  · rw [value_checkInput, outcome_evaluate hi hprogram hverifiable, hrun]
    simp only [hverdict]
    rfl
  · rw [callsOf_checkInput, outcome_evaluate hi hprogram hverifiable, hrun]

end Program

/-- A report names the index and the template of its input. -/
theorem report_of_yields_evaluate {s s' : Session tx} {report : InputReport} {calls : List Call}
    (h : Yields (v.evaluate index) s report s' calls) :
    ∃ i program verdict s₁ c₁, tx.inputs[index]? = some i ∧ Program.ofInput i = .ok program ∧
      Yields (v.judge (inputName tx index i) program) s verdict s₁ c₁ ∧
      report = { index, template := program.template, verdict } := by
  simp only [evaluate, yields_bind, yields_liftExcept, mapError_eq_ok] at h
  obtain ⟨i, _, _, _, ⟨hinput, rfl, -⟩, ⟨program, _, _, _, ⟨hprogram, rfl, -⟩,
    ⟨verdict, s₁, c₁, _, hjudge, hreport, -⟩, -⟩, -⟩ := h
  have hi : tx.inputs[index]? = some i := Transaction.input_eq_ok.mp hinput
  refine ⟨i, program, verdict, s₁, c₁, hi, hprogram, hjudge, ?_⟩
  cases verdict with
  | valid => exact (yields_pure.mp hreport).1
  | unverified => exact (yields_pure.mp hreport).1
  | invalid error =>
    obtain ⟨_, _, _, _, -, hpure, -⟩ := yields_bind.mp hreport
    exact (yields_pure.mp hpure).1

theorem report_of_checkInput {report : InputReport}
    (h : (v.checkInput tx index).value = .ok report) :
    report.index = index ∧
      ∃ i, tx.inputs[index]? = some i ∧ Template.classify i = .ok report.template := by
  rw [value_checkInput] at h
  obtain ⟨i, program, verdict, _, _, hi, hprogram, -, rfl⟩ :=
    report_of_yields_evaluate (yields_of_result h)
  obtain ⟨template, _, hfits, -, rfl⟩ := Program.ofInput_eq_ok.mp hprogram
  exact ⟨rfl, i, hi, Template.classify_eq_ok.mpr hfits⟩

/-- Only an input with a program that is run is accepted. -/
theorem exists_program_of_accepts {i : Input} (hi : tx.inputs[index]? = some i)
    (h : v.Accepts tx index) :
    ∃ program, Program.ofInput i = .ok program ∧ program.template.isVerifiable = true := by
  obtain ⟨report, hvalue, hvalid⟩ := h
  rw [value_checkInput] at hvalue
  obtain ⟨i', program, verdict, _, _, hi', hprogram, hjudge, rfl⟩ :=
    report_of_yields_evaluate (yields_of_result hvalue)
  obtain rfl := Option.some.inj (hi.symm.trans hi')
  refine ⟨program, hprogram, ?_⟩
  cases hverifiable : program.template.isVerifiable with
  | true => rfl
  | false =>
    -- A verdict without a run is never `valid`.
    have hnot : verdict ≠ .valid := by
      rw [judge, hverifiable, if_neg Bool.false_ne_true, yields_traced] at hjudge
      rw [hjudge.1, judgeTaproot]
      cases v.config.taproot with
      | unverified =>
        show Verdict.unverified ≠ .valid
        decide
      | reject =>
        show Verdict.invalid .unverifiedTaproot ≠ .valid
        decide
    exact absurd hvalid hnot

theorem leads_of_accepts {i : Input} {template : Template} (hi : tx.inputs[index]? = some i)
    (hclassify : Template.classify i = .ok template) (h : v.Accepts tx index) :
    ∃ script stack steps s', Program.scriptOf i template = .ok script ∧
      (v.runner index).Leads script (.ready (Program.stackOf i template) 0)
        (Session.fresh : Session tx) (.ready stack steps) s'
        (callsOf (v.checkInput tx index).trace) ∧ stack.AllTrue := by
  obtain ⟨program, hprogram, hverifiable⟩ := exists_program_of_accepts hi h
  obtain ⟨stack, steps, s', hlead, htrue⟩ :=
    (accepts_iff hi hprogram hverifiable).mp ⟨h, rfl⟩
  obtain ⟨template', script, hfits, hscript, rfl⟩ := Program.ofInput_eq_ok.mp hprogram
  obtain rfl : template = template' :=
    Except.ok.inj (hclassify.symm.trans (Template.classify_eq_ok.mpr hfits))
  exact ⟨script, stack, steps, s', hscript, hlead, htrue⟩

end Validator
end SpendCheck
