import SpendCheck.Proofs.Script.Calls
import SpendCheck.Proofs.Spend.KeyHash
import SpendCheck.Proofs.Spend.ScriptHash

/-!
# Nested witness programs

A witness program inside a lock by script hash names a key hash or a script hash of its
own.  The program that is run for such an input holds the hash of the witness program
against the lock and runs the rest, and that is all: nothing holds the revealed key or
script against the hash in the witness program.  The two equivalences say on what terms
nested spends are accepted.
-/

namespace SpendCheck

open Exec

theorem Asm.pushes_keyHashProgram {token : String} {keyHash : Hash160}
    (hprogram : Hex.decode token = .ok (Context.keyHashProgram keyHash)) :
    Pushes ["OP_PUSHBYTES_22", token] (Context.keyHashProgram keyHash) :=
  pushes_pushBytes (n := 22) (by decide) (by decide) hprogram (by simp [Context.keyHashProgram])

namespace Validator

variable {v : Validator} {tx : Transaction} {index : Nat} {i : Input}
  {hash program : String} {scriptHash : Hash160}

section KeyHash

variable {keyHash : Hash160}

/-- The checks on a signature and a key that a nested spend of a key hash makes. -/
def PassesNested (v : Validator) (tx : Transaction) (index : Nat) (i : Input)
    (keyHash scriptHash : Hash160) (signature key : Bytes) : Prop :=
  (v.runner index).Allows 5 ∧ hash160 (Context.keyHashProgram keyHash) = scriptHash ∧
    ∃ skeleton, tx.skeleton = .ok skeleton ∧ v.verifier.approves .verifySegwit skeleton
      ⟨.segwit, index, Context.keyHashScript keyHash, i.prevout.value⟩
      [signature] [key] = true

theorem program_p2shP2wpkh {first second : String} (htype : i.prevout.type = .p2sh)
    (hlock : i.prevout.tokens = Lock.scriptHash hash)
    (hscriptSig : i.scriptSigTokens = ["OP_PUSHBYTES_22", program])
    (hwitness : i.witness = some [first, second]) :
    Program.ofInput i = .ok ⟨.p2shP2wpkh,
      ["OP_CHECKSIG"] ++ (["OP_PUSHBYTES_22", program] ++ Lock.scriptHash hash),
      [.ofToken second, .ofToken first]⟩ := by
  have hstack : Program.stackOf i .p2shP2wpkh = [.ofToken second, .ofToken first] :=
    Program.seed_take_two hwitness
  have hscript : Program.scriptOf i .p2shP2wpkh =
      .ok (["OP_CHECKSIG"] ++ (["OP_PUSHBYTES_22", program] ++ Lock.scriptHash hash)) := by
    rw [Program.scriptOf, hscriptSig, hlock]
    rfl
  rw [← hstack]
  exact Program.ofInput_eq_ok.mpr
    ⟨.p2shP2wpkh, _, ⟨htype, first, second, hwitness⟩, hscript, rfl⟩

variable (hi : tx.inputs[index]? = some i)
  (hlock : i.prevout.tokens = Lock.scriptHash hash)
  (hhash : Hex.decode hash = .ok scriptHash.toList)
  (hscriptSig : i.scriptSigTokens = ["OP_PUSHBYTES_22", program])
  (hprogram : Hex.decode program = .ok (Context.keyHashProgram keyHash))

include hi hlock hhash hscriptSig hprogram

theorem accepts_p2shP2wpkh_iff {first second : String} (htype : i.prevout.type = .p2sh)
    (hwitness : i.witness = some [first, second]) :
    v.Accepts tx index ↔
      ∃ signature key, Hex.decode first = .ok signature ∧ Hex.decode second = .ok key ∧
        v.PassesNested tx index i keyHash scriptHash signature key := by
  have hcontext : Context.ofInput tx index =
      .ok ⟨.segwit, index, Context.keyHashScript keyHash, i.prevout.value⟩ :=
    Context.ofInput_of_keyHashProgram hi (by rw [hwitness]; rfl)
      ((Context.substitute_p2sh htype).mpr ⟨program, by rw [hscriptSig]; rfl, hprogram⟩)
  have hlocked := Asm.turns_pushed_scriptHash (Asm.pushes_keyHashProgram hprogram) hhash
  rw [accepts_iff_leads hi (program_p2shP2wpkh htype hlock hscriptSig hwitness) rfl]
  constructor
  · intro h
    obtain ⟨stack, steps, s', calls, hlead, htrue⟩ := h
    obtain ⟨m₁, s₁, c₁, c₂, hfirst, hsecond, rfl⟩ := Runner.leads_append.mp hlead
    obtain ⟨key, signature, below, accepted, hstack, -, hcheck, rfl⟩ :=
      Runner.leads_checkSig.mp hfirst
    obtain ⟨_, rfl, hsteps, hready, rfl, rfl⟩ := (hlocked ..).mp hsecond
    obtain ⟨rfl, -⟩ := Machine.ready_inj.mp hready
    obtain ⟨hcommitted, hbelow⟩ := Stack.allTrue_cons.mp htrue
    obtain rfl : accepted = true := by simpa using hbelow (.bool accepted) List.mem_cons_self
    have hasked := Runner.yields_check.mp hcheck
    obtain ⟨_, shared, -⟩ := Session.yields_checkSignatures.mp hasked
    obtain ⟨happroves, -⟩ :=
      (Session.yields_checkSignatures_fresh hcontext shared.isSkeleton).mp ⟨_, hasked⟩
    obtain ⟨hsignature, hkey, -⟩ := StackValue.pair_eq_bytes.mp hstack
    exact ⟨signature, key, hsignature, hkey, hsteps, by simpa using hcommitted,
      shared.skeleton, shared.isSkeleton, happroves.symm⟩
  · intro h
    obtain ⟨signature, key, hsignature, hkey, hsteps, hcommitted, skeleton, hskeleton,
      happroves⟩ := h
    obtain ⟨s', hcheck⟩ := (Session.yields_checkSignatures_fresh hcontext hskeleton).mpr
      ⟨happroves.symm, rfl⟩
    have hstack := StackValue.pair_eq_bytes.mpr ⟨hsignature, hkey, rfl⟩
    have hfewer : (v.runner index).Allows (0 + 1) := hsteps.mono (by omega)
    have hfirst := Runner.leads_checkSig.mpr ⟨key, signature, [], true, hstack, hfewer,
      Runner.yields_check.mpr hcheck, rfl⟩
    refine ⟨_, _, s', _,
      Runner.leads_append.mpr ⟨_, _, _, _, hfirst, hlocked.leads rfl hsteps, rfl⟩, ?_⟩
    simp [Stack.allTrue_cons, hcommitted]

/-- The terms of a nested spend of a key hash.  The hash of the key is not among them. -/
theorem nested_key_hash_terms (hclassify : Template.classify i = .ok .p2shP2wpkh) :
    v.Accepts tx index ↔
      ∃ first second signature key, i.witness = some [first, second] ∧
        Hex.decode first = .ok signature ∧ Hex.decode second = .ok key ∧
        v.PassesNested tx index i keyHash scriptHash signature key := by
  obtain ⟨htype, first, second, hwitness⟩ := Template.classify_eq_ok.mp hclassify
  rw [accepts_p2shP2wpkh_iff hi hlock hhash hscriptSig hprogram htype hwitness]
  constructor
  · intro h
    obtain ⟨signature, key, hpasses⟩ := h
    exact ⟨first, second, signature, key, hwitness, hpasses⟩
  · intro h
    obtain ⟨_, _, signature, key, hwitness', hpasses⟩ := h
    obtain ⟨rfl, rfl⟩ : first = _ ∧ second = _ := by simpa [hwitness] using hwitness'
    exact ⟨signature, key, hpasses⟩

end KeyHash

/-- A nested spend of the key hash of zeros, with a key that has another hash. -/
def foreignKey : Input :=
  { Input.spending .p2sh
      "OP_HASH160 OP_PUSHBYTES_20 67c10d4d1092750f0d3aa4aa7152f90da1e74248 OP_EQUAL" with
    scriptSigAsm := "OP_PUSHBYTES_22 00140000000000000000000000000000000000000000"
    witness := some ["30", "02"] }

def foreignKeyLock : Hash160 :=
  #v[0x67, 0xc1, 0x0d, 0x4d, 0x10, 0x92, 0x75, 0x0f, 0x0d, 0x3a, 0xa4, 0xaa, 0x71, 0x52, 0xf9,
    0x0d, 0xa1, 0xe7, 0x42, 0x48]

theorem tokens_foreignKey : foreignKey.prevout.tokens =
    Lock.scriptHash "67c10d4d1092750f0d3aa4aa7152f90da1e74248" := by cbv

theorem scriptSigTokens_foreignKey : foreignKey.scriptSigTokens =
    ["OP_PUSHBYTES_22", "00140000000000000000000000000000000000000000"] := by cbv

theorem passes_foreignKey : trusting.PassesNested (.ofInputs [foreignKey]) 0 foreignKey
    (Vector.replicate 20 0) foreignKeyLock [0x30] [0x02] := by
  have hcommitted : hash160 (Context.keyHashProgram (Vector.replicate 20 0)) = foreignKeyLock := by
    decide +kernel
  obtain ⟨skeleton, hskeleton⟩ :
      ∃ skeleton, (Transaction.ofInputs [foreignKey]).skeleton = .ok skeleton := ⟨_, rfl⟩
  exact ⟨allows_of_unlimited rfl 0 5, hcommitted, skeleton, hskeleton, rfl⟩

theorem nested_key_hash_terms_foreignKey : trusting.Accepts (.ofInputs [foreignKey]) 0 := by
  have hterms := @nested_key_hash_terms trusting (.ofInputs [foreignKey]) 0 foreignKey _ _
    foreignKeyLock (Vector.replicate 20 0) rfl tokens_foreignKey rfl scriptSigTokens_foreignKey rfl
    rfl
  exact hterms.mpr ⟨"30", "02", [0x30], [0x02], rfl, rfl, rfl, passes_foreignKey⟩

/-- Nested spends of a key hash are not bound to it. -/
theorem not_nested_key_hash_bound :
    ¬ ∀ (v : Validator) (tx : Transaction) (index : Nat) (i : Input) (hash program : String)
      (scriptHash keyHash : Hash160), tx.inputs[index]? = some i →
      Template.classify i = .ok .p2shP2wpkh → i.prevout.tokens = Lock.scriptHash hash →
      Hex.decode hash = .ok scriptHash.toList →
      i.scriptSigTokens = ["OP_PUSHBYTES_22", program] →
      Hex.decode program = .ok (Context.keyHashProgram keyHash) → v.Accepts tx index →
      ∃ second key, i.witnessItems[1]? = some second ∧ Hex.decode second = .ok key ∧
        hash160 key = keyHash := by
  intro hbound
  have haccepts : trusting.Accepts (.ofInputs [foreignKey]) 0 :=
    (accepts_p2shP2wpkh_iff rfl tokens_foreignKey rfl scriptSigTokens_foreignKey rfl rfl rfl).mpr
      ⟨[0x30], [0x02], rfl, rfl, passes_foreignKey⟩
  obtain ⟨second, key, hsecond, hkey, hhashed⟩ := hbound trusting (.ofInputs [foreignKey]) 0
    foreignKey _ _ foreignKeyLock (Vector.replicate 20 0) rfl rfl tokens_foreignKey rfl
    scriptSigTokens_foreignKey rfl haccepts
  obtain rfl : "02" = second := Option.some.inj hsecond
  obtain rfl : [0x02] = key := Except.ok.inj hkey
  have hforeign : shortKeyHash ≠ Vector.replicate 20 0 := by decide
  exact hforeign (hash160_shortKey.symm.trans hhashed)

section ScriptHash

variable {witnessHash : Hash256} {script : Asm}

/-- What a nested spend of a script hash asks of its witness script: that it runs over the
witness, and leaves nothing but the outcome `true` below the witness program. -/
def RunsInner (v : Validator) (tx : Transaction) (index : Nat) (i : Input) (script : Asm)
    (program : String) (data : Bytes) : Prop :=
  ∃ below steps s' calls, (v.runner index).Leads (script ++ [program])
      (.ready (Program.seed (Program.innerItems i.witnessItems)) 0) (Session.fresh : Session tx)
      (.ready (.bytes data :: below) steps) s' calls ∧
    (∀ value ∈ below, value = .bool true) ∧ (v.runner index).Allows (steps + 3)

theorem program_p2shP2wsh (hclassify : Template.classify i = .ok .p2shP2wsh)
    (hlock : i.prevout.tokens = Lock.scriptHash hash)
    (hscriptSig : i.scriptSigTokens = ["OP_PUSHBYTES_34", program])
    (hscript : i.witnessScript? = some script) :
    Program.ofInput i = .ok ⟨.p2shP2wsh, script ++ [program] ++ Lock.scriptHash hash,
      Program.seed (Program.innerItems i.witnessItems)⟩ := by
  have hscriptOf : Program.scriptOf i .p2shP2wsh =
      .ok (script ++ [program] ++ Lock.scriptHash hash) := by
    rw [Program.scriptOf, Program.p2shP2wshScript, hscriptSig, hscript, hlock]
    rfl
  exact Program.ofInput_eq_ok.mpr
    ⟨.p2shP2wsh, _, Template.classify_eq_ok.mp hclassify, hscriptOf, rfl⟩

variable (hi : tx.inputs[index]? = some i) (hclassify : Template.classify i = .ok .p2shP2wsh)
  (hlock : i.prevout.tokens = Lock.scriptHash hash)
  (hhash : Hex.decode hash = .ok scriptHash.toList)
  (hscriptSig : i.scriptSigTokens = ["OP_PUSHBYTES_34", program])
  (hprogram : Hex.decode program = .ok (Context.scriptHashProgram witnessHash))
  (hscript : i.witnessScript? = some script)

include hi hclassify hlock hhash hscriptSig hprogram hscript

theorem accepts_p2shP2wsh_iff :
    v.Accepts tx index ↔ hash160 (Context.scriptHashProgram witnessHash) = scriptHash ∧
      v.RunsInner tx index i script program (Context.scriptHashProgram witnessHash) := by
  have hsplit : script ++ [program] ++ Lock.scriptHash hash =
      script ++ program :: Lock.scriptHash hash := by simp
  rw [accepts_iff_leads hi (program_p2shP2wsh hclassify hlock hscriptSig hscript) rfl]
  simp only [hsplit]
  constructor
  · intro h
    obtain ⟨stack, steps, s', calls, hlead, htrue⟩ := h
    obtain ⟨hcommitted, below, steps, hinner⟩ :=
      (Runner.leads_scriptHash hhash hprogram).mp ⟨stack, steps, hlead, htrue⟩
    exact ⟨hcommitted, below, steps, s', calls, hinner⟩
  · intro h
    obtain ⟨hcommitted, below, steps, s', calls, hinner⟩ := h
    obtain ⟨stack, steps, hlead, htrue⟩ :=
      (Runner.leads_scriptHash hhash hprogram).mpr ⟨hcommitted, below, steps, hinner⟩
    exact ⟨stack, steps, s', calls, hlead, htrue⟩

/-- The terms of a nested spend of a script hash.  The last item of the witness is nowhere
held against the script hash, and enters only as what signatures commit to. -/
theorem nested_script_hash_terms :
    (v.Accepts tx index ↔ hash160 (Context.scriptHashProgram witnessHash) = scriptHash ∧
      v.RunsInner tx index i script program (Context.scriptHashProgram witnessHash)) ∧
    (v.Accepts tx index → ∀ call ∈ callsOf (v.checkInput tx index).trace,
      call.method = .verifySegwit ∧ ∃ item code,
        i.witnessItems.getLast? = some item ∧ Hex.decode item = .ok code ∧
        call.context = ⟨.segwit, index, code, i.prevout.value⟩) := by
  constructor
  · exact accepts_p2shP2wsh_iff hi hclassify hlock hhash hscriptSig hprogram hscript
  · intro haccepts call hcall
    obtain ⟨htype, ⟨first, second, third, rest, hwitness⟩, -⟩ :=
      Template.classify_eq_ok.mp hclassify
    have hsubstitute : Context.substitute i = .ok (Context.scriptHashProgram witnessHash) :=
      (Context.substitute_p2sh htype).mpr ⟨program, by rw [hscriptSig]; rfl, hprogram⟩
    obtain ⟨_, _, _, _, -, hlead, -⟩ := leads_of_accepts hi hclassify haccepts
    obtain ⟨-, hcontext, hmethod⟩ := Runner.call_of_leads hlead call hcall
    obtain ⟨item, code, hitem, hcode, hsame⟩ :=
      (Context.ofInput_of_scriptHashProgram hi (by rw [hwitness]; rfl) hsubstitute).mp hcontext
    rw [hsame] at hmethod
    exact ⟨hmethod, item, code, hitem, hcode, hsame⟩

end ScriptHash

/-- A nested spend of the script hash of zeros, with a script that has another hash and
asks for no signature. -/
def foreignScript : Input :=
  { Input.spending .p2sh
      "OP_HASH160 OP_PUSHBYTES_20 b0d268b1d35d06c7c1a5911f51d47181357cc6fe OP_EQUAL" with
    scriptSigAsm := "OP_PUSHBYTES_34 " ++
      "00200000000000000000000000000000000000000000000000000000000000000000"
    witness := some ["", "aa", "01aa87"]
    witnessScriptAsm := some "OP_PUSHBYTES_1 aa OP_EQUAL" }

def foreignScriptLock : Hash160 :=
  #v[0xb0, 0xd2, 0x68, 0xb1, 0xd3, 0x5d, 0x06, 0xc7, 0xc1, 0xa5, 0x91, 0x1f, 0x51, 0xd4, 0x71,
    0x81, 0x35, 0x7c, 0xc6, 0xfe]

theorem tokens_foreignScript : foreignScript.prevout.tokens =
    Lock.scriptHash "b0d268b1d35d06c7c1a5911f51d47181357cc6fe" := by cbv

theorem scriptSigTokens_foreignScript : foreignScript.scriptSigTokens = ["OP_PUSHBYTES_34",
    "00200000000000000000000000000000000000000000000000000000000000000000"] := by cbv

theorem classify_foreignScript : Template.classify foreignScript = .ok .p2shP2wsh := rfl

/-- The inner script compares the only item between the first and the last with itself. -/
theorem runsInner_foreignScript : standard.RunsInner (.ofInputs [foreignScript]) 0 foreignScript
    ["OP_PUSHBYTES_1", "aa", "OP_EQUAL"]
    "00200000000000000000000000000000000000000000000000000000000000000000"
    (Context.scriptHashProgram (Vector.replicate 32 0)) := by
  have hpush : Asm.Pushes ["OP_PUSHBYTES_1", "aa"] [0xaa] :=
    Asm.pushes_pushBytes (n := 1) (by decide) (by decide) rfl rfl
  have hprogram : Asm.Pushes
      ["00200000000000000000000000000000000000000000000000000000000000000000"]
      (Context.scriptHashProgram (Vector.replicate 32 0)) := Asm.pushes_literal rfl
  have hseed : Program.seed (Program.innerItems foreignScript.witnessItems) = [.bytes [0xaa]] := rfl
  rw [RunsInner, hseed]
  refine ⟨[.bool true], _, _, _,
    ((hpush.append Asm.turns_equal).append hprogram).leads ⟨_, ⟨_, rfl, _, _, _, rfl, rfl⟩, rfl⟩
      (allows_of_unlimited rfl 0 _), by simp, allows_of_unlimited rfl 0 _⟩

theorem committed_foreignScript :
    hash160 (Context.scriptHashProgram (Vector.replicate 32 0)) = foreignScriptLock := by
  decide +kernel

theorem nested_script_hash_terms_foreignScript :
    standard.Accepts (.ofInputs [foreignScript]) 0 := by
  obtain ⟨hterms, -⟩ := @nested_script_hash_terms standard (.ofInputs [foreignScript]) 0
    foreignScript _ _ foreignScriptLock (Vector.replicate 32 0)
    ["OP_PUSHBYTES_1", "aa", "OP_EQUAL"] rfl classify_foreignScript tokens_foreignScript rfl
    scriptSigTokens_foreignScript rfl rfl
  exact hterms.mpr ⟨committed_foreignScript, runsInner_foreignScript⟩

/-- Nested spends of a script hash are not bound to it. -/
theorem not_nested_script_hash_bound :
    ¬ ∀ (v : Validator) (tx : Transaction) (index : Nat) (i : Input) (hash program : String)
      (scriptHash : Hash160) (witnessHash : Hash256), tx.inputs[index]? = some i →
      Template.classify i = .ok .p2shP2wsh → i.prevout.tokens = Lock.scriptHash hash →
      Hex.decode hash = .ok scriptHash.toList →
      i.scriptSigTokens = ["OP_PUSHBYTES_34", program] →
      Hex.decode program = .ok (Context.scriptHashProgram witnessHash) → v.Accepts tx index →
      ∃ item data, i.witnessItems.getLast? = some item ∧ Hex.decode item = .ok data ∧
        Sha256.hash data = witnessHash := by
  intro hbound
  have haccepts : standard.Accepts (.ofInputs [foreignScript]) 0 :=
    (accepts_p2shP2wsh_iff rfl classify_foreignScript tokens_foreignScript rfl
      scriptSigTokens_foreignScript rfl rfl).mpr ⟨committed_foreignScript, runsInner_foreignScript⟩
  obtain ⟨item, data, hitem, hdata, hhashed⟩ := hbound standard (.ofInputs [foreignScript]) 0
    foreignScript _ _ foreignScriptLock (Vector.replicate 32 0) rfl classify_foreignScript
    tokens_foreignScript rfl scriptSigTokens_foreignScript rfl haccepts
  obtain rfl : "01aa87" = item := Option.some.inj hitem
  obtain rfl : [0x01, 0xaa, 0x87] = data := Except.ok.inj hdata
  have hforeign : Sha256.hash [0x01, 0xaa, 0x87] ≠ Vector.replicate 32 0 := by decide +kernel
  exact hforeign hhashed

end Validator
end SpendCheck
