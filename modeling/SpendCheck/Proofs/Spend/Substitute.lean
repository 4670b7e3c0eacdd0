import SpendCheck.Proofs.Spend.ScriptHash

/-!
# What is hashed and what is signed

An unlocking script names the script that it spends in one token.  Two parts of a
validation look for it, each in its own way: the lock by script hash hashes one token, and
signatures commit to what one token spells.  Both take the last token, except that the
lock takes the second one where a script hash program is nested in it.  So the two agree
on unlocking scripts of a single push, and a longer one can have one script hashed and
another one signed.
-/

namespace SpendCheck

namespace Program

variable {i : Input} {template : Template} {script : Asm}

/-- A spend of a lock by script hash has one of three templates, and its program holds a
token against the lock. -/
theorem exists_committed (htype : i.prevout.type = .p2sh) (hfits : template.Fits i)
    (hscript : scriptOf i template = .ok script) (hlast : i.scriptSigTokens ≠ []) :
    ∃ token, committed? i template = some token ∧
      (template ≠ .p2shP2wsh → i.scriptSigTokens.getLast? = some token) ∧
      (template = .p2shP2wsh → i.scriptSigTokens[1]? = some token) := by
  have hnamed : i.scriptSigTokens.getLast? = some (i.scriptSigTokens.getLast hlast) :=
    List.getLast?_eq_some_getLast hlast
  cases template with
  | p2sh => exact ⟨_, hnamed, fun _ => hnamed, nofun⟩
  | p2shP2wpkh => exact ⟨_, hnamed, fun _ => hnamed, nofun⟩
  | p2shP2wsh =>
    cases hsecond : i.scriptSigTokens[1]? with
    | none =>
      rw [scriptOf, p2shP2wshScript, hsecond] at hscript
      cases hscript
    | some token => exact ⟨token, hsecond, fun hne => absurd rfl hne, fun _ => rfl⟩
  | p2pkh =>
    have hother : i.prevout.type = .p2pkh := hfits
    rw [htype] at hother
    cases hother
  | p2wsh | p2wpkh =>
    have hother := hfits.1
    rw [htype] at hother
    cases hother
  | taproot =>
    have hother : i.prevout.type = .v1P2tr := hfits
    rw [htype] at hother
    cases hother

end Program

namespace Validator

variable {tx : Transaction} {index : Nat} {i : Input} {program : Program} {context : Context}

/-- The token that the lock hashes, and the one that signatures commit to.  They are the
same one just where a nested script hash program stands both second and last. -/
theorem committed_token_terms (hi : tx.inputs[index]? = some i)
    (htype : i.prevout.type = .p2sh) (hprogram : Program.ofInput i = .ok program)
    (hcontext : Context.ofInput tx index = .ok context) :
    ∃ before committed named script,
      program.script = before ++ committed :: i.prevout.tokens ∧
      i.scriptSigTokens.getLast? = some named ∧ Hex.decode named = .ok script ∧
      Context.substitute i = .ok script ∧ Context.scriptCodeOf i script = .ok context.scriptCode ∧
      (committed = named ↔ (program.template = .p2shP2wsh →
        i.scriptSigTokens[1]? = i.scriptSigTokens.getLast?)) ∧
      (i.scriptSigTokens.length = 2 → committed = named) := by
  obtain ⟨script, code, hsubstitute, hcode, rfl⟩ := (Context.ofInput_eq_ok hi).mp hcontext
  obtain ⟨named, hnamed, hdata⟩ := (Context.substitute_p2sh htype).mp hsubstitute
  obtain ⟨template, asm, hfits, hscript, rfl⟩ := Program.ofInput_eq_ok.mp hprogram
  have hlast : i.scriptSigTokens ≠ [] := by
    intro hnil
    rw [hnil] at hnamed
    cases hnamed
  obtain ⟨committed, hcommitted, hothers, hnested⟩ :=
    Program.exists_committed htype hfits hscript hlast
  obtain ⟨before, hbefore⟩ := Program.scriptOf_committed hscript hcommitted
  have hsame : committed = named ↔
      (template = .p2shP2wsh → i.scriptSigTokens[1]? = i.scriptSigTokens.getLast?) := by
    by_cases htemplate : template = .p2shP2wsh
    · rw [hnamed, hnested htemplate]
      simp [htemplate]
    · have hsome := (hothers htemplate).symm.trans hnamed
      simp [htemplate, Option.some.inj hsome]
  refine ⟨before, committed, named, script, hbefore, hnamed, hdata, hsubstitute, hcode, hsame, ?_⟩
  intro htwo
  rw [hsame, List.getLast?_eq_getElem?, htwo]
  intro _
  rfl

/-- A nested spend with a second push behind the witness program. -/
def pushedTwice : Input :=
  { Input.spending .p2sh
      "OP_HASH160 OP_PUSHBYTES_20 0000000000000000000000000000000000000000 OP_EQUAL" with
    scriptSigAsm := "OP_PUSHBYTES_34 " ++ zeroProgram ++ " OP_PUSHBYTES_1 51"
    witness := some ["", "aa", "01aa87"]
    witnessScriptAsm := some "OP_PUSHBYTES_1 aa OP_EQUAL" }

def pushedTwiceProgram : Program where
  template := .p2shP2wsh
  script := ["OP_PUSHBYTES_1", "aa", "OP_EQUAL"] ++ zeroProgram :: pushedTwice.prevout.tokens
  stack := [.bytes [0xaa]]

theorem ofInput_pushedTwice : Program.ofInput pushedTwice = .ok pushedTwiceProgram := by rfl

theorem context_pushedTwice :
    Context.ofInput (.ofInputs [pushedTwice]) 0 = .ok ⟨.segwit, 0, [0x51], 0⟩ := by rfl

theorem committed_token_terms_pushedTwice :
    ∃ before committed named, pushedTwiceProgram.script =
        before ++ committed :: pushedTwice.prevout.tokens ∧
      pushedTwice.scriptSigTokens.getLast? = some named ∧ committed ≠ named := by
  obtain ⟨before, committed, named, _, hbefore, hnamed, -, -, -, hsame, -⟩ :=
    @committed_token_terms (.ofInputs [pushedTwice]) 0 pushedTwice pushedTwiceProgram _ rfl rfl
      ofInput_pushedTwice context_pushedTwice
  refine ⟨before, committed, named, hbefore, hnamed, ?_⟩
  intro heq
  have hsecond : pushedTwice.scriptSigTokens[1]? = some zeroProgram := rfl
  have hlast : pushedTwice.scriptSigTokens.getLast? = some "51" := rfl
  have hmeet := hsame.mp heq rfl
  rw [hsecond, hlast] at hmeet
  exact absurd hmeet (by decide)

/-- The token that the lock hashes need not spell what signatures commit to. -/
theorem not_committed_token_signed :
    ¬ ∀ (tx : Transaction) (index : Nat) (i : Input) (program : Program) (context : Context)
      (before : Asm) (committed : String) (script : Bytes), tx.inputs[index]? = some i →
      i.prevout.type = .p2sh → Program.ofInput i = .ok program →
      Context.ofInput tx index = .ok context →
      program.script = before ++ committed :: i.prevout.tokens →
      Context.substitute i = .ok script → Hex.decode committed = .ok script := by
  intro hsigned
  have hsubstitute : Context.substitute pushedTwice = .ok [0x51] := rfl
  have hdecoded := hsigned (.ofInputs [pushedTwice]) 0 pushedTwice _ _ _ _ _ rfl rfl
    ofInput_pushedTwice context_pushedTwice rfl hsubstitute
  have hprogram : Hex.decode zeroProgram =
      .ok (Context.scriptHashProgram (Vector.replicate 32 0)) := rfl
  have hsame : Context.scriptHashProgram (Vector.replicate 32 0) = [0x51] :=
    Except.ok.inj (hprogram.symm.trans hdecoded)
  exact absurd hsame (by decide)

end Validator
end SpendCheck
