import SpendCheck.Proofs.Script.Calls
import SpendCheck.Proofs.Script.Lock
import SpendCheck.Proofs.Validation.Whole

/-!
# Templates and digest rules

A template is told from the type of the lock, the witness and the inner scripts; the digest rules
of a signature are told from whether there is a witness at all, and not every type of lock has a
script to sign under either set.  The two agree: the rules under which an input asks a verifier
are those of its template, so is the method by which it asks, and a template without rules never
asks.
-/

namespace SpendCheck

open Exec

/-- The digest rules of a template, where it has any. -/
def Template.regime? : Template → Option Regime
  | .p2pkh | .p2sh => some .legacy
  | .p2shP2wpkh | .p2shP2wsh | .p2wpkh => some .segwit
  | .p2wsh | .taproot => none

/-- The method by which spends of a template ask a verifier, where they ask. -/
def Template.method? : Template → Option Method
  | .p2pkh | .p2sh => some .verifyLegacy
  | .p2shP2wpkh | .p2shP2wsh | .p2wpkh => some .verifySegwit
  | .p2wsh | .taproot => none

namespace Context

variable {tx : Transaction} {index : Nat} {i : Input} {context : Context}

/-- There is a script for signatures of the input under the rules that it falls under. -/
def Served (i : Input) : Prop :=
  i.prevout.type = .p2sh ∨ (i.prevout.type = .v0P2wpkh ∧ i.hasWitness = true) ∨
    (i.prevout.type = .p2pkh ∧ i.hasWitness = false)

theorem mapError_txData_ne {α : Type} {x : Except DataError α} {regime : Regime}
    {type : LockType} :
    x.mapError ContextError.txData ≠ .error (.unsupportedRegime regime type) := by
  cases x <;> simp [Except.mapError]

theorem substitute_of_served {regime : Regime} {type : LockType} (h : Served i) :
    substitute i ≠ .error (.unsupportedRegime regime type) := by
  rw [substitute, Regime.ofInput]
  rcases h with htype | ⟨htype, hwitness⟩ | ⟨htype, hwitness⟩
  · rw [htype]
    cases i.scriptSigTokens.getLast? with
    | none => simp
    | some token => exact mapError_txData_ne
  · rw [htype, hwitness]
    exact mapError_txData_ne
  · rw [htype, hwitness]
    exact mapError_txData_ne

theorem substitute_of_not_served (h : ¬ Served i) :
    substitute i = .error (.unsupportedRegime (Regime.ofInput i) i.prevout.type) := by
  unfold Served at h
  unfold substitute Regime.ofInput
  cases hwitness : i.hasWitness <;> cases htype : i.prevout.type <;> simp_all

theorem scriptCodeOf_ne_unsupported {script : Bytes} {regime : Regime} {type : LockType} :
    scriptCodeOf i script ≠ .error (.unsupportedRegime regime type) := by
  unfold scriptCodeOf
  split
  · simp
  · split
    · simp
    · split
      · cases i.witnessItems.getLast? with
        | none => simp
        | some item => exact mapError_txData_ne
      · simp

theorem unsupported_iff (hi : tx.inputs[index]? = some i) :
    (∃ regime type, ofInput tx index = .error (.unsupportedRegime regime type)) ↔ ¬ Served i := by
  have hinput : (tx.input index).mapError ContextError.txData = .ok i :=
    mapError_eq_ok.mpr (Transaction.input_eq_ok.mpr hi)
  constructor
  · intro h hserved
    obtain ⟨regime, type, herror⟩ := h
    simp only [ofInput, hinput, bind_eq_error, Except.ok.injEq, exists_eq_left', reduceCtorEq,
      false_or] at herror
    obtain hsubstitute | ⟨script, -, hcode | ⟨_, -, hpure⟩⟩ := herror
    · exact substitute_of_served hserved hsubstitute
    · exact scriptCodeOf_ne_unsupported hcode
    · exact pure_ne_error hpure
  · intro h
    refine ⟨Regime.ofInput i, i.prevout.type, ?_⟩
    rw [ofInput, hinput]
    show substitute i >>= _ = _
    rw [substitute_of_not_served h]
    rfl

theorem served_of_ofInput (hi : tx.inputs[index]? = some i)
    (hcontext : ofInput tx index = .ok context) : Served i := by
  by_contra hnot
  obtain ⟨regime, type, herror⟩ := (unsupported_iff hi).mpr hnot
  cases hcontext.symm.trans herror

end Context

namespace Template

variable {i : Input} {template : Template}

theorem served_iff (hfits : template.Fits i) (htaproot : template ≠ .taproot) :
    Context.Served i ↔ ¬ (template = .p2wsh ∨ (template = .p2pkh ∧ i.hasWitness = true)) := by
  cases template with
  | p2pkh =>
    have htype : i.prevout.type = .p2pkh := hfits
    simp [Context.Served, htype]
  | p2sh | p2shP2wpkh | p2shP2wsh => simp [Context.Served, hfits.1]
  | p2wsh => simp [Context.Served, hfits.1]
  | p2wpkh =>
    obtain ⟨htype, first, second, rest, hwitness⟩ := hfits
    simp [Context.Served, htype, Input.hasWitness, hwitness]
  | taproot => exact absurd rfl htaproot

/-- Where there is something to sign, the rules that the witness decides on are those of the
template. -/
theorem regime?_of_served (hfits : template.Fits i) (hserved : Context.Served i) :
    template.regime? = some (Regime.ofInput i) := by
  cases template with
  | p2pkh =>
    have htype : i.prevout.type = .p2pkh := hfits
    have hnone : i.hasWitness = false := by simpa [Context.Served, htype] using hserved
    simp [regime?, Regime.ofInput, hnone]
  | p2sh => simp [regime?, Regime.ofInput, Input.hasWitness, hfits.2.1]
  | p2shP2wpkh =>
    obtain ⟨-, first, second, hwitness⟩ := hfits
    simp [regime?, Regime.ofInput, Input.hasWitness, hwitness]
  | p2shP2wsh =>
    obtain ⟨-, ⟨first, second, third, rest, hwitness⟩, -⟩ := hfits
    simp [regime?, Regime.ofInput, Input.hasWitness, hwitness]
  | p2wpkh =>
    obtain ⟨-, first, second, rest, hwitness⟩ := hfits
    simp [regime?, Regime.ofInput, Input.hasWitness, hwitness]
  | p2wsh => simp [Context.Served, hfits.1] at hserved
  | taproot =>
    have htype : i.prevout.type = .v1P2tr := hfits
    simp [Context.Served, htype] at hserved

end Template

/-- Which templates fall under which rules. -/
theorem Template.of_regime?_eq_some {template : Template} {regime : Regime}
    (h : template.regime? = some regime) :
    (regime = .legacy ↔ template = .p2pkh ∨ template = .p2sh) ∧
      (regime = .segwit ↔ template = .p2shP2wpkh ∨ template = .p2shP2wsh ∨ template = .p2wpkh) := by
  cases template <;> simp [regime?] at h <;> subst h <;> simp

/-- The method for the rules of a template is that of the template. -/
theorem Template.method?_eq (template : Template) :
    template.method? = template.regime?.map Regime.method := by
  cases template <;> rfl

/-- The input that the call names has a program, and the call is made under the rules of its
template and by its method. -/
def Call.FollowsTemplate (tx : Transaction) (call : Call) : Prop :=
  ∃ i program, tx.inputs[call.context.inputIndex]? = some i ∧ Program.ofInput i = .ok program ∧
    program.template.regime? = some call.context.regime ∧
    program.template.method? = some call.method

namespace Validator

variable {v : Validator} {tx : Transaction} {index : Nat} {i : Input} {program : Program}

theorem allCalls_judge (name : InputName) (program : Program) :
    AllCalls (Call.IsAbout tx name.index)
      (v.judge name program : Exec ValidationError (Session tx) Verdict) := by
  rw [judge]
  split
  · intro s
    rw [outcome_judgeProgram]
    exact (v.runner name.index).allCalls_run program.script program.stack s
  · refine allCalls_traced ?_
    rw [judgeTaproot]
    cases v.config.taproot <;> rfl

/-- Judging an input asks only about what its signatures commit to, and under the rules of its
template. -/
theorem allCalls_evaluate (v : Validator) (tx : Transaction) (index : Nat) :
    AllCalls (fun call => call.context.inputIndex = index ∧ call.FollowsTemplate tx)
      (v.evaluate index : Exec ValidationError (Session tx) InputReport) := by
  refine AllCalls.liftExcept_bind fun i hinput => ?_
  have hi : tx.inputs[index]? = some i :=
    Transaction.input_eq_ok.mp (mapError_eq_ok.mp hinput)
  refine AllCalls.liftExcept_bind fun program hread => ?_
  have hprogram : Program.ofInput i = .ok program := mapError_eq_ok.mp hread
  obtain ⟨template, script, hfits, -, rfl⟩ := Program.ofInput_eq_ok.mp hprogram
  have hrules : ∀ call, Call.IsAbout tx index call →
      call.context.inputIndex = index ∧ call.FollowsTemplate tx := by
    intro call habout
    obtain ⟨-, hcontext, hmethod⟩ := habout
    obtain ⟨_, _, -, -, heq⟩ := (Context.ofInput_eq_ok hi).mp hcontext
    have hindex : call.context.inputIndex = index := by rw [heq]
    have hregime : template.regime? = some call.context.regime := by
      rw [heq]
      exact Template.regime?_of_served hfits (Context.served_of_ofInput hi hcontext)
    refine ⟨hindex, i, _, hindex ▸ hi, hprogram, hregime, ?_⟩
    rw [Template.method?_eq, hregime, hmethod]
    rfl
  refine ((allCalls_judge _ _).mono hrules).bind fun verdict => ?_
  cases verdict with
  | valid => exact allCalls_pure _
  | unverified => exact allCalls_pure _
  | invalid error => exact (allCalls_note rfl).bind fun _ => allCalls_pure _

theorem followsTemplate_of_mem_check {call : Call} (hcall : call ∈ callsOf (v.check tx).trace) :
    call.FollowsTemplate tx := by
  rw [callsOf_check] at hcall
  have hrow : AllCalls (Call.FollowsTemplate tx)
      ((List.range tx.inputs.length).mapM v.evaluate :
        Exec ValidationError (Session tx) (List InputReport)) :=
    AllCalls.mapM fun index _ => (allCalls_evaluate v tx index).mono fun _ h => h.2
  exact hrow _ call hcall

theorem of_mem_checkInput {call : Call} (hcall : call ∈ callsOf (v.checkInput tx index).trace) :
    call.context.inputIndex = index ∧ call.FollowsTemplate tx := by
  rw [callsOf_checkInput] at hcall
  exact allCalls_evaluate v tx index _ call hcall

/-- An input whose template has no rules is named by no call. -/
theorem inputIndex_ne_of_template {call : Call} (hcall : call.FollowsTemplate tx)
    (hi : tx.inputs[index]? = some i) (hprogram : Program.ofInput i = .ok program)
    (hnone : program.template.regime? = none) : call.context.inputIndex ≠ index := by
  intro heq
  obtain ⟨i', program', hi', hprogram', hregime, -⟩ := hcall
  rw [heq] at hi'
  obtain rfl := Option.some.inj (hi.symm.trans hi')
  obtain rfl := Except.ok.inj (hprogram.symm.trans hprogram')
  cases hnone.symm.trans hregime

theorem exists_program_of_mem_check {report : Report} (h : (v.check tx).value = .ok report)
    {r : InputReport} (hr : r ∈ report.inputs) :
    ∃ i program, tx.inputs[r.index]? = some i ∧ Program.ofInput i = .ok program ∧
      program.template = r.template := by
  rw [value_check, map_eq_ok] at h
  obtain ⟨reports, hreports, rfl⟩ := h
  obtain ⟨index, -, _, _, _, hyields⟩ := exists_yields_of_mapM (yields_of_result hreports) r hr
  obtain ⟨i, program, _, _, _, hi, hprogram, -, rfl⟩ := report_of_yields_evaluate hyields
  exact ⟨i, program, hi, hprogram, rfl⟩

/-- Templates and digest rules agree, input by input and call by call. -/
theorem regimes_agree (v : Validator) (tx : Transaction) :
    (∀ index i program, tx.inputs[index]? = some i → Program.ofInput i = .ok program →
      program.template ≠ .taproot →
      ((∃ regime type, Context.ofInput tx index = .error (.unsupportedRegime regime type)) ↔
        program.template = .p2wsh ∨ (program.template = .p2pkh ∧ i.hasWitness = true)) ∧
      ∀ context, Context.ofInput tx index = .ok context →
        (context.regime = .legacy ↔ program.template = .p2pkh ∨ program.template = .p2sh) ∧
        (context.regime = .segwit ↔ program.template = .p2shP2wpkh ∨
          program.template = .p2shP2wsh ∨ program.template = .p2wpkh) ∧
        context.inputIndex = index ∧ context.value = i.prevout.value) ∧
    (∀ call ∈ callsOf (v.check tx).trace, call.FollowsTemplate tx) ∧
    (∀ index, ∀ call ∈ callsOf (v.checkInput tx index).trace,
      call.context.inputIndex = index ∧ call.FollowsTemplate tx) ∧
    (∀ report, (v.check tx).value = .ok report → ∀ r ∈ report.inputs, r.template = .p2wsh →
      ∀ call ∈ callsOf (v.check tx).trace, call.context.inputIndex ≠ r.index) ∧
    (∀ index r, (v.checkInput tx index).value = .ok r → r.template = .p2wsh →
      callsOf (v.checkInput tx index).trace = []) := by
  refine ⟨?contexts, fun call => followsTemplate_of_mem_check,
    fun index call => of_mem_checkInput, ?whole, ?alone⟩
  case contexts =>
    intro index i program hi hprogram htaproot
    obtain ⟨template, script, hfits, -, rfl⟩ := Program.ofInput_eq_ok.mp hprogram
    constructor
    · rw [Context.unsupported_iff hi, Template.served_iff hfits htaproot, not_not]
    · intro context hcontext
      have hserved := Context.served_of_ofInput hi hcontext
      obtain ⟨_, _, -, -, rfl⟩ := (Context.ofInput_eq_ok hi).mp hcontext
      obtain ⟨hlegacy, hsegwit⟩ :=
        Template.of_regime?_eq_some (Template.regime?_of_served hfits hserved)
      exact ⟨hlegacy, hsegwit, rfl, rfl⟩
  case whole =>
    intro report hreport r hr htemplate call hcall
    obtain ⟨i, program, hi, hprogram, hsame⟩ := exists_program_of_mem_check hreport hr
    exact inputIndex_ne_of_template (followsTemplate_of_mem_check hcall) hi hprogram
      (by rw [hsame, htemplate]; rfl)
  case alone =>
    intro index r hvalue htemplate
    rw [value_checkInput] at hvalue
    obtain ⟨i, program, _, _, _, hi, hprogram, -, rfl⟩ :=
      report_of_yields_evaluate (yields_of_result hvalue)
    have hnone : program.template.regime? = none := congrArg Template.regime? htemplate
    rw [List.eq_nil_iff_forall_not_mem]
    intro call hcall
    obtain ⟨hindex, hfollows⟩ := of_mem_checkInput hcall
    exact inputIndex_ne_of_template hfollows hi hprogram hnone hindex

/-- An input that a signature unlocks, and one that a hash held against itself does. -/
def signedAndHashed : Transaction := .ofInputs [
  { Input.spending .p2pkh "OP_CHECKSIG" with scriptSigAsm := "30 02" },
  { Input.spending .v0P2wsh "" with
    witness := some ["", "aa"]
    witnessScriptAsm := some "aa OP_SHA256" }]

theorem context_signed : Context.ofInput signedAndHashed 0 = .ok ⟨.legacy, 0, [], 0⟩ :=
  (Context.ofInput_p2pkh rfl rfl).mpr ⟨rfl, [], rfl, rfl⟩

theorem checkInput_signed : ∃ call,
    (trusting.checkInput signedAndHashed 0).value = .ok ⟨0, .p2pkh, .valid⟩ ∧
    callsOf (trusting.checkInput signedAndHashed 0).trace = [call] := by
  obtain ⟨skeleton, hskeleton⟩ : ∃ skeleton, signedAndHashed.skeleton = .ok skeleton := ⟨_, rfl⟩
  have hsignature : Asm.Pushes ["30"] [0x30] := Asm.pushes_literal rfl
  have hkey : Asm.Pushes ["02"] [0x02] := Asm.pushes_literal rfl
  have hstart : (trusting.runner 0).Leads (["30"] ++ ["02"]) (.ready [] 0)
      (Session.fresh : Session signedAndHashed) (.ready [.bytes [0x02], .bytes [0x30]] 2)
      Session.fresh [] :=
    (hsignature.append hkey).leads ⟨_, rfl, rfl⟩ (allows_of_unlimited rfl 0 _)
  obtain ⟨s', hasked⟩ : ∃ s', Yields
      (Session.checkSignatures trusting.verifier 0 [[0x30]] [[0x02]]) Session.fresh true s' _ :=
    (Session.yields_checkSignatures_fresh context_signed hskeleton).mpr ⟨rfl, rfl⟩
  have hchecked : (trusting.runner 0).Leads ["OP_CHECKSIG"]
      (.ready [.bytes [0x02], .bytes [0x30]] 2) Session.fresh _ s' _ :=
    Runner.leads_checkSig.mpr ⟨[0x02], [0x30], [], _, rfl, allows_of_unlimited rfl 0 3,
      Runner.yields_check.mpr hasked, rfl⟩
  have hprogram : Program.ofInput (signedAndHashed.inputs[0]) = .ok ⟨.p2pkh,
      (["30"] ++ ["02"]) ++ ["OP_CHECKSIG"], []⟩ := rfl
  obtain ⟨verdict, hvalue, hcalls, hvalid⟩ :=
    report_of_leads (v := trusting) rfl hprogram rfl (hstart.append hchecked)
  obtain rfl : verdict = .valid := hvalid.mpr (Stack.allTrue_cons.mpr ⟨rfl, by simp⟩)
  exact ⟨_, hvalue, hcalls⟩

theorem checkInput_hashed :
    (trusting.checkInput signedAndHashed 1).value = .ok ⟨1, .p2wsh, .valid⟩ := by
  have hpushed : Asm.Pushes ["aa"] [0xaa] := Asm.pushes_literal rfl
  have hhashed : Asm.Turns (["aa"] ++ ["OP_SHA256"]) 2 _ := hpushed.append Asm.turns_sha256
  have hcompared := (hhashed.append hhashed).append Asm.turns_equal
  have hlead : (trusting.runner 1).Leads
      ((["aa"] ++ ["OP_SHA256"]) ++ (["aa"] ++ ["OP_SHA256"]) ++ ["OP_EQUAL"])
      (.ready [] 0) (Session.fresh : Session signedAndHashed) (.ready [.bool true] 5)
      Session.fresh [] := by
    refine hcompared.leads ?_ (allows_of_unlimited rfl 1 _)
    refine ⟨_, ⟨_, ⟨_, rfl, _, _, rfl, rfl⟩, _, rfl, _, _, rfl, rfl⟩, _, _, _, rfl, ?_⟩
    rw [decide_eq_true rfl]
  have hprogram : Program.ofInput (signedAndHashed.inputs[1]) = .ok ⟨.p2wsh,
      (["aa"] ++ ["OP_SHA256"]) ++ (["aa"] ++ ["OP_SHA256"]) ++ ["OP_EQUAL"], []⟩ := rfl
  obtain ⟨verdict, hvalue, -, hvalid⟩ := report_of_leads (v := trusting) rfl hprogram rfl hlead
  obtain rfl : verdict = .valid := hvalid.mpr (Stack.allTrue_cons.mpr ⟨rfl, by simp⟩)
  exact hvalue

theorem regimes_agree_signedAndHashed :
    (∃ context, Context.ofInput signedAndHashed 0 = .ok context ∧ context.regime = .legacy) ∧
    (∃ regime type,
      Context.ofInput signedAndHashed 1 = .error (.unsupportedRegime regime type)) ∧
    (∃ call, callsOf (trusting.checkInput signedAndHashed 0).trace = [call] ∧
      call.FollowsTemplate signedAndHashed) ∧
    callsOf (trusting.checkInput signedAndHashed 1).trace = [] ∧
    (∃ report, (trusting.check signedAndHashed).value = .ok report ∧ report.isValid = true) ∧
    ∀ call ∈ callsOf (trusting.check signedAndHashed).trace, call.context.inputIndex ≠ 1 := by
  obtain ⟨call, hsigned, hcall⟩ := checkInput_signed
  have hreports : trusting.Reports signedAndHashed [⟨0, .p2pkh, .valid⟩, ⟨1, .p2wsh, .valid⟩] :=
    .cons hsigned (.cons checkInput_hashed .nil)
  have hreport := (check_of_reports (Verifier.historyFree_ofPredicate _) hreports).1
  obtain ⟨hcontexts, -, hcalls, hwhole, halone⟩ := regimes_agree trusting signedAndHashed
  obtain ⟨-, hrules⟩ := hcontexts 0 _ ⟨.p2pkh, ["30", "02", "OP_CHECKSIG"], []⟩ rfl rfl (by simp)
  obtain ⟨hunsupported, -⟩ := hcontexts 1 _
    ⟨.p2wsh, ["aa", "OP_SHA256", "aa", "OP_SHA256", "OP_EQUAL"], []⟩ rfl rfl (by simp)
  have hlegacy := (hrules _ context_signed).1.mpr (.inl rfl)
  refine ⟨⟨_, context_signed, hlegacy⟩, hunsupported.mpr (.inl rfl), ⟨call, hcall, ?_⟩,
    halone 1 _ checkInput_hashed rfl, ⟨_, hreport, rfl⟩, ?_⟩
  · exact (hcalls 0 call (by rw [hcall]; exact List.mem_singleton_self call)).2
  · exact hwhole _ hreport ⟨1, .p2wsh, .valid⟩ (by simp) rfl

end Validator
end SpendCheck
