import SpendCheck.Proofs.Validation.Isolation

/-!
# Whole transactions

The inputs of a transaction are judged in one session, and each comes out as it does
when it is judged alone.  So the report on a transaction holds the reports on its
inputs, and the error that stops its judgement is the error of the first input whose
own judgement stops.
-/

namespace SpendCheck

theorem range_eq_append_cons {n a : Nat} {before after : List Nat}
    (h : List.range n = before ++ a :: after) : a < n ∧ before = List.range a := by
  have hat : (List.range n)[before.length]? = some a := by simp [h]
  obtain ⟨hlt, rfl⟩ : before.length < n ∧ before.length = a := by
    simpa [List.getElem?_eq_some_iff] using hat
  have htake : (List.range n).take before.length = before := by simp [h]
  rw [List.take_range, Nat.min_eq_left (Nat.le_of_lt hlt)] at htake
  exact ⟨hlt, htake.symm⟩

theorem exists_range_eq_append_cons {n a : Nat} (h : a < n) :
    ∃ after, List.range n = List.range a ++ a :: after := by
  have hlength : a < (List.range n).length := by simpa using h
  refine ⟨(List.range n).drop (a + 1), ?_⟩
  have hdrop := List.drop_eq_getElem_cons hlength
  have htake : (List.range n).take a = List.range a := by
    rw [List.take_range, Nat.min_eq_left (Nat.le_of_lt h)]
  rw [List.getElem_range] at hdrop
  rw [← hdrop, ← htake, List.take_append_drop]

namespace Validator

open Exec

variable {v : Validator} {tx : Transaction} {index : Nat}

/-- The reports on the inputs, each judged alone, in their order. -/
def Reports (v : Validator) (tx : Transaction) (reports : List InputReport) : Prop :=
  List.Forall₂ (fun index r => (v.checkInput tx index).value = .ok r)
    (List.range tx.inputs.length) reports

/-- The input at the index is the first whose own judgement stops, and with which error. -/
def FirstError (v : Validator) (tx : Transaction) (index : Nat) (error : ValidationError) : Prop :=
  index < tx.inputs.length ∧
    (∀ earlier < index, ∃ r, (v.checkInput tx earlier).value = .ok r) ∧
    (v.checkInput tx index).value = .error error

/-- The questions that judging each of the first inputs alone puts to the verifier. -/
def callsBefore (v : Validator) (tx : Transaction) (count : Nat) : List Call :=
  (List.range count).flatMap fun index => callsOf (v.checkInput tx index).trace

theorem reports_or_firstError (v : Validator) (tx : Transaction) :
    (∃ reports, v.Reports tx reports) ∨ ∃ index error, v.FirstError tx index error := by
  obtain hreports | ⟨before, index, after, error, hrange, hbefore, herror⟩ :=
    forall₂_ok_or_first_error (fun index => (v.checkInput tx index).value)
      (List.range tx.inputs.length)
  · exact .inl hreports
  · obtain ⟨hindex, rfl⟩ := range_eq_append_cons hrange
    refine .inr ⟨index, error, hindex, ?_, herror⟩
    intro earlier hearlier
    exact hbefore earlier (List.mem_range.mpr hearlier)

theorem reports_iff {reports : List InputReport} :
    v.Reports tx reports ↔ reports.length = tx.inputs.length ∧
      ∀ index < tx.inputs.length, ∃ r, reports[index]? = some r ∧
        (v.checkInput tx index).value = .ok r := by
  rw [Reports, List.forall₂_iff_get]
  simp only [List.length_range, List.get_eq_getElem, List.getElem_range]
  constructor
  · intro h
    obtain ⟨hlength, hget⟩ := h
    refine ⟨hlength.symm, ?_⟩
    intro index hindex
    have hlt : index < reports.length := hlength ▸ hindex
    exact ⟨reports[index], List.getElem?_eq_getElem hlt, hget index hindex hlt⟩
  · intro h
    obtain ⟨hlength, hget⟩ := h
    refine ⟨hlength.symm, ?_⟩
    intro index hindex hlt
    obtain ⟨r, hr, hvalue⟩ := hget index hindex
    rw [List.getElem?_eq_getElem hlt] at hr
    rw [Option.some.inj hr]
    exact hvalue

theorem isValid_of_reports {reports : List InputReport} (h : v.Reports tx reports) :
    ({ inputs := reports } : Report).isValid = true ↔
      ∀ index < tx.inputs.length, ∃ r, (v.checkInput tx index).value = .ok r ∧
        r.verdict.passed = true := by
  obtain ⟨hlength, hget⟩ := reports_iff.mp h
  simp only [Report.isValid, List.all_eq_true]
  constructor
  · intro hpassed index hindex
    obtain ⟨r, hr, hvalue⟩ := hget index hindex
    exact ⟨r, hvalue, hpassed r (List.mem_of_getElem? hr)⟩
  · intro hpassed r hr
    obtain ⟨index, hindex⟩ := List.mem_iff_getElem?.mp hr
    obtain ⟨hlt, -⟩ := List.getElem?_eq_some_iff.mp hindex
    obtain ⟨r', hr', hvalue⟩ := hget index (hlength ▸ hlt)
    obtain ⟨r'', hvalue'', hverdict⟩ := hpassed index (hlength ▸ hlt)
    obtain rfl := Option.some.inj (hindex.symm.trans hr')
    obtain rfl := Except.ok.inj (hvalue.symm.trans hvalue'')
    exact hverdict

theorem value_check : (v.check tx).value =
    (outcome ((List.range tx.inputs.length).mapM v.evaluate)
      (Session.fresh : Session tx)).result.map fun inputs => { inputs } := rfl

theorem callsOf_check : callsOf (v.check tx).trace =
    (outcome ((List.range tx.inputs.length).mapM v.evaluate)
      (Session.fresh : Session tx)).calls := by
  show callsOf (_ ++ []) = _
  rw [List.append_nil]
  rfl

theorem value_validate : (v.validate tx).value =
    match (v.check tx).value with
    | .ok report => report.isValid
    | .error _ => false := by
  rw [validate, Traced.value_bind]
  cases (v.check tx).value <;> rfl

section HistoryFree

variable (hfree : v.verifier.HistoryFree)

include hfree

theorem outcome_evaluate_alone (index : Nat) (s : Session tx) :
    (outcome (v.evaluate index) s).result = (v.checkInput tx index).value ∧
      (outcome (v.evaluate index) s).calls = callsOf (v.checkInput tx index).trace := by
  rw [value_checkInput, callsOf_checkInput]
  exact agree_evaluate hfree rfl rfl rfl s Session.fresh

theorem check_of_reports {reports : List InputReport} (h : v.Reports tx reports) :
    (v.check tx).value = .ok { inputs := reports } ∧
      callsOf (v.check tx).trace = v.callsBefore tx tx.inputs.length := by
  obtain ⟨hresult, hcalls⟩ :=
    outcome_mapM_ok (outcome_evaluate_alone hfree) h (Session.fresh : Session tx)
  rw [value_check, callsOf_check, hresult, hcalls]
  exact ⟨rfl, rfl⟩

theorem check_of_firstError {error : ValidationError} (h : v.FirstError tx index error) :
    (v.check tx).value = .error error ∧
      callsOf (v.check tx).trace = v.callsBefore tx (index + 1) := by
  obtain ⟨hindex, hearlier, herror⟩ := h
  obtain ⟨after, hrange⟩ := exists_range_eq_append_cons hindex
  have hbefore : ∀ earlier ∈ List.range index, ∃ r, (v.checkInput tx earlier).value = .ok r :=
    fun earlier hmem => hearlier earlier (List.mem_range.mp hmem)
  obtain ⟨hresult, hcalls⟩ := outcome_mapM_error
    (outcome_evaluate_alone hfree) after hbefore herror (Session.fresh : Session tx)
  rw [value_check, callsOf_check, hrange, hresult, hcalls, callsBefore, List.range_succ]
  exact ⟨rfl, rfl⟩

theorem check_eq_ok {report : Report} :
    (v.check tx).value = .ok report ↔ v.Reports tx report.inputs := by
  constructor
  · intro h
    obtain ⟨reports, hreports⟩ | ⟨index, error, herror⟩ := v.reports_or_firstError tx
    · rw [(check_of_reports hfree hreports).1] at h
      obtain rfl := Except.ok.inj h
      exact hreports
    · rw [(check_of_firstError hfree herror).1] at h
      cases h
  · intro h
    exact (check_of_reports hfree h).1

theorem check_eq_error {error : ValidationError} :
    (v.check tx).value = .error error ↔ ∃ index, v.FirstError tx index error := by
  constructor
  · intro h
    obtain ⟨reports, hreports⟩ | ⟨index, error', herror⟩ := v.reports_or_firstError tx
    · rw [(check_of_reports hfree hreports).1] at h
      cases h
    · rw [(check_of_firstError hfree herror).1] at h
      obtain rfl := Except.error.inj h
      exact ⟨index, herror⟩
  · intro h
    obtain ⟨index, herror⟩ := h
    exact (check_of_firstError hfree herror).1

theorem exists_check_eq_ok : (∃ report, (v.check tx).value = .ok report) ↔
    ∀ index < tx.inputs.length, ∃ r, (v.checkInput tx index).value = .ok r := by
  constructor
  · intro h index hindex
    obtain ⟨report, hreport⟩ := h
    obtain ⟨r, -, hvalue⟩ := (reports_iff.mp ((check_eq_ok hfree).mp hreport)).2 index hindex
    exact ⟨r, hvalue⟩
  · intro h
    obtain ⟨reports, hreports⟩ | ⟨index, error, hindex, -, herror⟩ := v.reports_or_firstError tx
    · exact ⟨_, (check_of_reports hfree hreports).1⟩
    · obtain ⟨r, hvalue⟩ := h index hindex
      cases hvalue.symm.trans herror

theorem validate_eq_true : (v.validate tx).value = true ↔
    ∀ index < tx.inputs.length, ∃ r, (v.checkInput tx index).value = .ok r ∧
      r.verdict.passed = true := by
  rw [value_validate]
  obtain ⟨reports, hreports⟩ | ⟨index, error, herror⟩ := v.reports_or_firstError tx
  · rw [(check_of_reports hfree hreports).1]
    exact isValid_of_reports hreports
  · rw [(check_of_firstError hfree herror).1]
    obtain ⟨hindex, -, hstops⟩ := herror
    simp only [Bool.false_eq_true, false_iff]
    intro hpassed
    obtain ⟨r, hvalue, -⟩ := hpassed index hindex
    cases hvalue.symm.trans hstops

end HistoryFree

/-- Judging a whole transaction is judging its inputs one by one, each alone.  It comes to
a report where all of them do, which holds their reports in order; else it comes to the
first error, and nothing is asked about the inputs behind it. -/
theorem check_eq_checkInput (hfree : v.verifier.HistoryFree) (tx : Transaction) :
    ((∃ report, (v.check tx).value = .ok report) ↔
      ∀ index < tx.inputs.length, ∃ r, (v.checkInput tx index).value = .ok r) ∧
    (∀ report, (v.check tx).value = .ok report →
      report.inputs.length = tx.inputs.length ∧
      (∀ index < tx.inputs.length, ∃ r i, report.inputs[index]? = some r ∧
        (v.checkInput tx index).value = .ok r ∧ r.index = index ∧
        tx.inputs[index]? = some i ∧ Template.classify i = .ok r.template) ∧
      callsOf (v.check tx).trace = v.callsBefore tx tx.inputs.length) ∧
    (∀ error, (v.check tx).value = .error error ↔ ∃ index, v.FirstError tx index error) ∧
    (∀ index error, v.FirstError tx index error →
      callsOf (v.check tx).trace = v.callsBefore tx (index + 1)) ∧
    ((v.validate tx).value = true ↔
      ∀ index < tx.inputs.length, ∃ r, (v.checkInput tx index).value = .ok r ∧
        r.verdict.passed = true) := by
  refine ⟨exists_check_eq_ok hfree, ?_, fun error => check_eq_error hfree,
    fun index error h => (check_of_firstError hfree h).2, validate_eq_true hfree⟩
  intro report hreport
  have hreports := (check_eq_ok hfree).mp hreport
  obtain ⟨hlength, hget⟩ := reports_iff.mp hreports
  refine ⟨hlength, ?_, (check_of_reports hfree hreports).2⟩
  intro index hindex
  obtain ⟨r, hr, hvalue⟩ := hget index hindex
  obtain ⟨hplace, i, hi, hclassify⟩ := report_of_checkInput hvalue
  exact ⟨r, i, hr, hvalue, hplace, hi, hclassify⟩

/-- A transaction whose second input stops its judgement. -/
def stopped : Transaction := .ofInputs [witnessSpend, brokenSpend, witnessSpend]

/-- A transaction with an input that is not evaluated. -/
def partlyVerified : Transaction := .ofInputs [witnessSpend, Input.spending .v1P2tr ""]

theorem check_eq_checkInput_stopped :
    (trusting.check stopped).value = .error (.unsupportedTemplate
      (inputName stopped 1 brokenSpend) (.unsupportedType .multisig)) ∧
    callsOf (trusting.check stopped).trace = trusting.callsBefore stopped 2 ∧
    (trusting.validate partlyVerified).value = true := by
  have hfree : trusting.verifier.HistoryFree := Verifier.historyFree_ofPredicate _
  have hstopped : trusting.Accepts stopped 0 := by decide +kernel
  have hpartly : trusting.Accepts partlyVerified 0 := by decide +kernel
  obtain ⟨first, hfirst, -⟩ := hstopped
  obtain ⟨valid, hvalid, hverdict⟩ := hpartly
  obtain ⟨-, -, herror, hcalls, -⟩ := check_eq_checkInput hfree stopped
  obtain ⟨-, -, -, -, hvalidate⟩ := check_eq_checkInput hfree partlyVerified
  have hstops : trusting.FirstError stopped 1 _ :=
    ⟨by decide, fun earlier hearlier => ⟨first, Nat.lt_one_iff.mp hearlier ▸ hfirst⟩, rfl⟩
  refine ⟨(herror _).mpr ⟨1, hstops⟩, hcalls 1 _ hstops, hvalidate.mpr ?_⟩
  intro index hindex
  match index, hindex with
  | 0, _ => exact ⟨valid, hvalid, by rw [hverdict]; rfl⟩
  | 1, _ => exact ⟨⟨1, .taproot, .unverified⟩, rfl, rfl⟩

end Validator
end SpendCheck
