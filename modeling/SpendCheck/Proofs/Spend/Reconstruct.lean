import SpendCheck.Proofs.Spend.ScriptHash

/-!
# Which inputs have a program

An input that fits a template has shown the inner script that the template asks for.  So what
its program may still lack are tokens of the unlocking script, in front of the push of that
inner script, or the key hash in a lock.  A program starts from a slice of the witness, which
is all data, and a spend of a plain script hash runs every token of its three scripts.
-/

namespace SpendCheck

open Exec

namespace Program

variable {i : Input} {template : Template} {error : TemplateError}

/-! ## What a program lacks -/

/-- Too few tokens for the template, and the error that says so. -/
def Lacks (i : Input) (template : Template) (error : TemplateError) : Prop :=
  ((template = .p2sh ∨ template = .p2shP2wsh) ∧ i.scriptSigTokens.length < 2 ∧
      error = .shortScriptSig i.scriptSigTokens.length template) ∨
    (template = .p2wpkh ∧ i.prevout.tokens.length < 3 ∧ error = .noPubkeyHash)

theorem p2shScript_eq_error {redeem : Asm} (hredeem : i.redeemScript? = some redeem) :
    p2shScript i = .error error ↔ i.scriptSigTokens.length < 2 ∧
      error = .shortScriptSig i.scriptSigTokens.length .p2sh := by
  rw [p2shScript, hredeem, Asm.splitTail?]
  by_cases hshort : i.scriptSigTokens.length < 2
  · simp [Nat.not_le.mpr hshort, hshort, eq_comm]
  · simp [Nat.not_lt.mp hshort, hshort]

theorem p2shP2wshScript_eq_error {script : Asm} (hscript : i.witnessScript? = some script) :
    p2shP2wshScript i = .error error ↔ i.scriptSigTokens.length < 2 ∧
      error = .shortScriptSig i.scriptSigTokens.length .p2shP2wsh := by
  rw [p2shP2wshScript, hscript]
  cases hsecond : i.scriptSigTokens[1]? with
  | none =>
    have hshort : i.scriptSigTokens.length < 2 :=
      Nat.lt_succ_of_le (List.getElem?_eq_none_iff.mp hsecond)
    simp [hshort, eq_comm]
  | some program =>
    obtain ⟨hlong, -⟩ := List.getElem?_eq_some_iff.mp hsecond
    simp [Nat.not_lt.mpr hlong]

theorem p2wpkhScript_eq_error :
    p2wpkhScript i = .error error ↔ i.prevout.tokens.length < 3 ∧ error = .noPubkeyHash := by
  rw [p2wpkhScript]
  cases hthird : i.prevout.tokens[2]? with
  | none =>
    have hshort : i.prevout.tokens.length < 3 :=
      Nat.lt_succ_of_le (List.getElem?_eq_none_iff.mp hthird)
    simp [hshort, eq_comm]
  | some keyHash =>
    obtain ⟨hlong, -⟩ := List.getElem?_eq_some_iff.mp hthird
    simp [Nat.not_lt.mpr hlong]

/-- Behind a template that fits, no script is put together without its inner script. -/
theorem scriptOf_eq_error (hfits : template.Fits i) :
    scriptOf i template = .error error ↔ Lacks i template error := by
  cases template with
  | p2pkh | p2shP2wpkh | taproot => simp [scriptOf, Lacks]
  | p2sh =>
    obtain ⟨-, -, redeem, hredeem, -⟩ := hfits
    rw [scriptOf, p2shScript_eq_error hredeem]
    simp [Lacks]
  | p2shP2wsh =>
    obtain ⟨-, -, script, hscript, -⟩ := hfits
    rw [scriptOf, p2shP2wshScript_eq_error hscript]
    simp [Lacks]
  | p2wsh =>
    obtain ⟨-, -, script, hscript⟩ := hfits
    simp [scriptOf, p2wshScript, hscript, Lacks]
  | p2wpkh =>
    rw [scriptOf, p2wpkhScript_eq_error]
    simp [Lacks]

theorem ofInput_of_unclassified (h : Template.classify i = .error error) :
    ofInput i = .error error := by
  rw [ofInput, h]
  rfl

theorem ofInput_eq_error (h : Template.classify i = .ok template) :
    ofInput i = .error error ↔ scriptOf i template = .error error := by
  rw [ofInput, h]
  cases hscript : scriptOf i template with
  | error => simp [hscript, bind, Except.bind]
  | ok script => simp [hscript, bind, Except.bind, pure, Except.pure]

/-! ## What a program starts from -/

theorem bottomFirst_seed (items : List String) :
    (seed items).bottomFirst = items.map StackValue.ofToken := List.reverse_reverse _

theorem innerItems_eq_extract (witness : List String) :
    innerItems witness = witness.extract 1 (witness.length - 1) := by
  rw [innerItems, List.dropLast_eq_take, List.length_drop, List.extract_eq_take_drop]

theorem bool_not_mem_seed (outcome : Bool) (items : List String) : .bool outcome ∉ seed items := by
  intro h
  obtain ⟨item, -, hitem⟩ := List.mem_map.mp (List.mem_reverse.mp h)
  rw [StackValue.ofToken] at hitem
  cases hdata : Hex.decode item <;> simp [hdata] at hitem

theorem bool_not_mem_stackOf (outcome : Bool) : .bool outcome ∉ stackOf i template := by
  cases template with
  | p2wpkh | p2shP2wpkh | p2wsh | p2shP2wsh => exact bool_not_mem_seed outcome _
  | p2pkh | p2sh | taproot => exact List.not_mem_nil

/-- A spend by key hash has the two items that it starts from. -/
theorem two_le_witnessItems (hfits : template.Fits i)
    (htemplate : template = .p2wpkh ∨ template = .p2shP2wpkh) : 2 ≤ i.witnessItems.length := by
  rcases htemplate with rfl | rfl
  · obtain ⟨-, first, second, rest, hwitness⟩ := hfits
    simp [Input.witnessItems, hwitness]
  · obtain ⟨-, first, second, hwitness⟩ := hfits
    simp [Input.witnessItems, hwitness]

/-- A spend by script hash has an item for the witness script. -/
theorem witnessItems_ne_nil (hfits : template.Fits i)
    (htemplate : template = .p2wsh ∨ template = .p2shP2wsh) : i.witnessItems ≠ [] := by
  rcases htemplate with rfl | rfl
  · obtain ⟨-, ⟨rest, hwitness⟩, -⟩ := hfits
    simp [Input.witnessItems, hwitness]
  · obtain ⟨-, ⟨first, second, third, rest, hwitness⟩, -⟩ := hfits
    simp [Input.witnessItems, hwitness]

/-! ## What a program runs -/

/-- Moving the push of the redeem script keeps every token. -/
theorem perm_of_scriptOf_p2sh {script : Asm} (h : scriptOf i .p2sh = .ok script) :
    ∃ redeem, i.redeemScript? = some redeem ∧
      script.Perm (i.scriptSigTokens ++ redeem ++ i.prevout.tokens) := by
  obtain ⟨pushes, opcode, data, redeem, hunlocking, hredeem, rfl⟩ := scriptOf_p2sh.mp h
  refine ⟨redeem, hredeem, List.Perm.append_right _ ?_⟩
  rw [hunlocking, List.append_assoc, List.append_assoc]
  exact List.perm_append_comm.append_left pushes

/-- Which inputs have a program, and what it starts from. -/
theorem ofInput_terms (i : Input) :
    (∀ error, Template.classify i = .error error → ofInput i = .error error) ∧
    ∀ template, Template.classify i = .ok template →
      (∀ error, ofInput i = .error error ↔ Lacks i template error) ∧
      (∀ type, scriptOf i template ≠ .error (.noInnerScript type)) ∧
      ∀ program, ofInput i = .ok program →
        program.template = template ∧
        (template = .p2wpkh ∨ template = .p2shP2wpkh →
          program.stack.bottomFirst = (i.witnessItems.extract 0 2).map .ofToken ∧
          program.stack.length = 2) ∧
        (template = .p2wsh ∨ template = .p2shP2wsh → i.witnessItems ≠ [] ∧
          program.stack.bottomFirst =
            (i.witnessItems.extract 1 (i.witnessItems.length - 1)).map .ofToken ∧
          program.stack.length = i.witnessItems.length - 2) ∧
        (template = .p2pkh ∨ template = .p2sh ∨ template = .taproot → program.stack = []) ∧
        (∀ outcome, .bool outcome ∉ program.stack) ∧
        (template = .p2sh → ∃ redeem, i.redeemScript? = some redeem ∧
          program.script.Perm (i.scriptSigTokens ++ redeem ++ i.prevout.tokens)) := by
  refine ⟨fun error => ofInput_of_unclassified, fun template hclassify => ?_⟩
  have hfits := Template.classify_eq_ok.mp hclassify
  refine ⟨?lacks, ?inner, ?made⟩
  case lacks =>
    intro error
    rw [ofInput_eq_error hclassify, scriptOf_eq_error hfits]
  case inner =>
    intro type hinner
    have hlacks := (scriptOf_eq_error hfits).mp hinner
    simp [Lacks] at hlacks
  case made =>
    intro program hprogram
    obtain ⟨found, script, hfound, hscript, rfl⟩ := ofInput_eq_ok.mp hprogram
    obtain rfl : template = found :=
      Except.ok.inj (hclassify.symm.trans (Template.classify_eq_ok.mpr hfound))
    refine ⟨rfl, ?keyHash, ?scriptHash, ?plain, fun outcome => bool_not_mem_stackOf outcome, ?kept⟩
    case keyHash =>
      intro htemplate
      have hstack : stackOf i template = seed (i.witnessItems.extract 0 2) := by
        rcases htemplate with rfl | rfl <;> simp [stackOf, List.extract_eq_take_drop]
      have hlength := two_le_witnessItems hfits htemplate
      refine ⟨by rw [hstack, bottomFirst_seed], ?_⟩
      rw [hstack]
      simp [seed, Stack.ofBottomFirst]
      omega
    case scriptHash =>
      intro htemplate
      have hstack : stackOf i template =
          seed (i.witnessItems.extract 1 (i.witnessItems.length - 1)) := by
        rcases htemplate with rfl | rfl <;> rw [stackOf, innerItems_eq_extract]
      refine ⟨witnessItems_ne_nil hfits htemplate, by rw [hstack, bottomFirst_seed], ?_⟩
      rw [hstack]
      simp [seed, Stack.ofBottomFirst]
      omega
    case plain =>
      intro htemplate
      rcases htemplate with rfl | rfl | rfl <;> rfl
    case kept =>
      rintro rfl
      exact perm_of_scriptOf_p2sh hscript

/-- A spend of a script hash without room for the push of its redeem script. -/
def unpushed : Input :=
  { Input.spending .p2sh "" with
    scriptSigAsm := "OP_0"
    redeemScriptAsm := some "OP_CHECKSIG" }

def pushed : Input := { unpushed with scriptSigAsm := "30 OP_PUSHBYTES_1 51" }

theorem ofInput_terms_unpushed :
    ofInput (Input.spending .p2pk "") = .error (.unsupportedType .p2pk) ∧
    ofInput unpushed = .error (.shortScriptSig 1 .p2sh) ∧
    ∃ program redeem, ofInput pushed = .ok program ∧ program.template = .p2sh ∧
      program.stack = [] ∧ pushed.redeemScript? = some redeem ∧
      program.script.Perm (pushed.scriptSigTokens ++ redeem ++ pushed.prevout.tokens) := by
  obtain ⟨hrefused, -⟩ := ofInput_terms (Input.spending .p2pk "")
  obtain ⟨hlacks, -⟩ := (ofInput_terms unpushed).2 .p2sh rfl
  obtain ⟨-, -, hmade⟩ := (ofInput_terms pushed).2 .p2sh rfl
  have hprogram : ofInput pushed =
      .ok ⟨.p2sh, ["30", "OP_CHECKSIG", "OP_PUSHBYTES_1", "51"], []⟩ := rfl
  obtain ⟨htemplate, -, -, hstack, -, hkept⟩ := hmade _ hprogram
  obtain ⟨redeem, hredeem, hperm⟩ := hkept rfl
  refine ⟨hrefused _ rfl, (hlacks _).mpr (.inl ⟨.inl rfl, ?_, rfl⟩), _, redeem, hprogram, htemplate,
    hstack (.inr (.inl rfl)), hredeem, hperm⟩
  show 1 < 2
  omega

end Program
end SpendCheck
