import SpendCheck.Proofs.Script.MultiSig
import SpendCheck.Proofs.Spend.Nested

/-!
# Spends with several signatures

A lock by script hash is spent with a check of several signatures in two ways: with the
signatures in front of the redeem script, or with a witness that starts with an empty
item.  Either way evaluation puts a single question to the verifier, with the signatures
and the keys in the order in which they are written, and its answer and the hash in the
lock decide.
-/

namespace SpendCheck

open Exec

namespace Lock

theorem spelled_of_mem_push {d : Datum} {token : String} (htoken : token ∈ d.push) :
    token.toList.head? ≠ some 'O' ∨ token.toList[4]? = some 'U' := by
  rw [Datum.push, Asm.pushOf] at htoken
  by_cases hshort : d.data.length ≤ 75
  · rw [if_pos hshort] at htoken
    cases List.mem_pair.mp htoken with
    | inl hopcode =>
      right
      rw [hopcode, String.toList_append]
      rfl
    | inr htext => exact .inl (htext ▸ Hex.head_ne_of_decode d.spells)
  · rw [if_neg hshort] at htoken
    cases List.mem_pair.mp htoken with
    | inl hopcode => exact .inr (hopcode ▸ rfl)
    | inr htext => exact .inl (htext ▸ Hex.head_ne_of_decode d.spells)

/-- No token of such a check spells an opcode that waits for a lock time. -/
theorem spelled_of_mem_multiSig {required : Nat} {keys : List Datum} {token : String}
    (htoken : token ∈ multiSig required keys) :
    token.toList.head? ≠ some 'O' ∨ token.toList[4]? = some 'U' ∨ token.toList[4]? = some 'H' := by
  have hcount : ∀ n, (StackValue.pushNum n).toList[4]? = some 'U' := by
    intro n
    rw [StackValue.toList_pushNum]
    rfl
  simp only [multiSig, Asm.pushAll, List.mem_append, List.mem_singleton, List.mem_flatMap]
    at htoken
  obtain ((hrequired | ⟨d, -, hpush⟩) | hlength) | hcheck := htoken
  · exact .inr (.inl (hrequired ▸ hcount required))
  · exact (spelled_of_mem_push hpush).imp_right .inl
  · exact .inr (.inl (hlength ▸ hcount keys.length))
  · exact .inr (.inr (hcheck ▸ rfl))

theorem csvToken_not_mem_multiSig (required : Nat) (keys : List Datum) :
    Template.csvToken ∉ multiSig required keys := fun h =>
  absurd (spelled_of_mem_multiSig h) (by decide)

theorem dropToken_not_mem_multiSig (required : Nat) (keys : List Datum) :
    Template.dropToken ∉ multiSig required keys := fun h =>
  absurd (spelled_of_mem_multiSig h) (by decide)

end Lock

theorem Datum.push_eq (d : Datum) : ∃ opcode, d.push = [opcode, d.text] := by
  rw [Datum.push, Asm.pushOf]
  by_cases hshort : d.data.length ≤ 75
  · rw [if_pos hshort]
    exact ⟨_, rfl⟩
  · rw [if_neg hshort]
    exact ⟨_, rfl⟩

theorem Program.seed_texts (ds : List Datum) :
    seed (ds.map Datum.text) = Stack.extend [] (ds.map Datum.value) := by
  have hvalues : ds.map (StackValue.ofToken ∘ Datum.text) = ds.map Datum.value :=
    List.map_congr_left fun d _ => d.ofToken_text
  rw [seed, List.map_map, hvalues, Stack.ofBottomFirst, Stack.extend, List.append_nil]

namespace Validator

variable {v : Validator} {tx : Transaction} {index : Nat} {i : Input}

/-- The evaluation of an input puts one question to the verifier, by this method, and the input
is valid just where the answer is yes and a hash is the right one. -/
def RestsOn (v : Validator) (tx : Transaction) (index : Nat) (template : Template)
    (skeleton : RawTx) (method : Method) (context : Context) (signatures keys : List Bytes)
    (hashed : Prop) : Prop :=
  ∃ verdict accepted, (v.checkInput tx index).value = .ok { index, template, verdict } ∧
    callsOf (v.checkInput tx index).trace =
      [⟨skeleton, method, context, signatures, keys, accepted⟩] ∧
    accepted = v.verifier.approves method skeleton context signatures keys ∧
    (verdict = .valid ↔ accepted = true ∧ hashed)

/-- Checks that put one question and leave its answer, in front of a push that is held
against the lock. -/
theorem restsOn_of_leads {template : Template} {checks push : Asm} {start : Stack}
    {skeleton : RawTx} {context : Context} {signatures keys : List Bytes} {data : Bytes}
    {hash : String} {scriptHash : Hash160} (hi : tx.inputs[index]? = some i)
    (hprogram : Program.ofInput i =
      .ok ⟨template, checks ++ (push ++ Lock.scriptHash hash), start⟩)
    (hverifiable : template.isVerifiable = true) (hlimit : v.config.maxSteps = none)
    (hcontext : Context.ofInput tx index = .ok context) (hskeleton : tx.skeleton = .ok skeleton)
    (hpush : Asm.Pushes push data) (hhash : Hex.decode hash = .ok scriptHash.toList)
    (hchecks : ∀ accepted (s' : Session tx) calls,
      Yields ((v.runner index).check signatures keys) Session.fresh accepted s' calls →
      ∃ steps, (v.runner index).Leads checks (.ready start 0) Session.fresh
        (.ready [.bool accepted] steps) s' calls) :
    v.RestsOn tx index template skeleton context.regime.method context signatures keys
      (hash160 data = scriptHash) := by
  obtain ⟨s', hasked⟩ : ∃ s', Yields
      (Session.checkSignatures v.verifier index signatures keys) (Session.fresh : Session tx)
      (v.verifier.approves context.regime.method skeleton context signatures keys) s' _ :=
    (Session.yields_checkSignatures_fresh hcontext hskeleton).mpr ⟨rfl, rfl⟩
  obtain ⟨steps, hfirst⟩ := hchecks _ s' _ (Runner.yields_check.mpr hasked)
  have hlocked : (v.runner index).Leads (push ++ Lock.scriptHash hash)
      (.ready [.bool (v.verifier.approves context.regime.method skeleton context signatures keys)]
        steps) s' _ s' [] :=
    (Asm.turns_pushed_scriptHash hpush hhash).leads rfl
      (allows_of_unlimited hlimit index (steps + 4))
  have hlead := hfirst.append hlocked
  obtain ⟨verdict, hvalue, hcalls, hvalid⟩ := report_of_leads hi hprogram hverifiable hlead
  refine ⟨verdict, _, hvalue, ?_, rfl, ?_⟩
  · rw [hcalls, List.append_nil]
  · rw [hvalid, Stack.allTrue_cons, and_comm]
    simp

section Spends

variable {hash : String} {scriptHash : Hash160} {skeleton : RawTx} {signatures keys : List Datum}
  {script : Datum}
  (hi : tx.inputs[index]? = some i) (htype : i.prevout.type = .p2sh)
  (hlock : i.prevout.tokens = Lock.scriptHash hash)
  (hhash : Hex.decode hash = .ok scriptHash.toList)
  (hlimit : v.config.maxSteps = none) (hskeleton : tx.skeleton = .ok skeleton)
  (hsignatures : signatures.length < 2 ^ 64) (hkeys : keys.length < 2 ^ 64)

include hi htype hlock hhash hlimit hskeleton hsignatures hkeys

theorem restsOn_p2sh_multiSig (hwitness : i.witness = none)
    (hscriptSig : i.scriptSigTokens = "OP_0" :: (Asm.pushAll signatures ++ script.push))
    (hredeem : i.redeemScript? = some (Lock.multiSig signatures.length keys)) :
    v.RestsOn tx index .p2sh skeleton .verifyLegacy
      ⟨.legacy, index, script.data, i.prevout.value⟩
      (signatures.map Datum.data) (keys.map Datum.data) (hash160 script.data = scriptHash) := by
  obtain ⟨opcode, hpush⟩ := script.push_eq
  have hlast : i.scriptSigTokens.getLast? = some script.text := by
    rw [hscriptSig, hpush, List.getLast?_eq_some_iff]
    exact ⟨"OP_0" :: (Asm.pushAll signatures ++ [opcode]), by simp⟩
  have hcontext : Context.ofInput tx index =
      .ok ⟨.legacy, index, script.data, i.prevout.value⟩ := by
    rw [Context.ofInput_eq_ok hi, Regime.ofInput_eq_legacy.mpr hwitness]
    exact ⟨script.data, script.data,
      (Context.substitute_p2sh htype).mpr ⟨script.text, hlast, script.spells⟩,
      Context.scriptCodeOf_legacy hwitness script.data, rfl⟩
  have hscriptOf : Program.scriptOf i .p2sh = .ok (["OP_0"] ++ Asm.pushAll signatures ++
      Lock.multiSig signatures.length keys ++ (script.push ++ Lock.scriptHash hash)) := by
    rw [Program.scriptOf_p2sh]
    refine ⟨"OP_0" :: Asm.pushAll signatures, opcode, script.text, _, ?_, hredeem, ?_⟩
    · rw [hscriptSig, hpush, List.cons_append]
    · rw [hpush, hlock]
      simp
  have hprogram : Program.ofInput i = .ok ⟨.p2sh, ["OP_0"] ++ Asm.pushAll signatures ++
      Lock.multiSig signatures.length keys ++ (script.push ++ Lock.scriptHash hash), []⟩ := by
    rw [Program.ofInput_eq_ok]
    exact ⟨.p2sh, _, ⟨htype, hwitness, _, hredeem, Lock.csvToken_not_mem_multiSig _ _⟩, hscriptOf,
      rfl⟩
  refine restsOn_of_leads hi hprogram rfl hlimit hcontext hskeleton
    (Asm.pushes_pushOf script.spells script.nonempty) hhash ?_
  intro accepted s' calls hcheck
  have hallows := allows_of_unlimited hlimit index
  have hzero : (v.runner index).Leads ["OP_0"] (.ready [] 0) (Session.fresh : Session tx)
      (.ready [] 1) Session.fresh [] := Asm.turns_zero.leads rfl (hallows 1)
  have hpushed := hzero.append (Runner.leads_pushAll signatures (hallows _))
  exact ⟨_, hpushed.append (Runner.leads_multiSig signatures keys hsignatures hkeys (hallows _)
    hcheck)⟩

theorem restsOn_p2shP2wsh_multiSig {program : String} {witnessHash : Hash256}
    (hrequired : signatures ≠ [])
    (hwitness : i.witness = some ("" :: (signatures.map Datum.text ++ [script.text])))
    (hscriptSig : i.scriptSigTokens = ["OP_PUSHBYTES_34", program])
    (hprogram : Hex.decode program = .ok (Context.scriptHashProgram witnessHash))
    (hscript : i.witnessScript? = some (Lock.multiSig signatures.length keys)) :
    v.RestsOn tx index .p2shP2wsh skeleton .verifySegwit
      ⟨.segwit, index, script.data, i.prevout.value⟩
      (signatures.map Datum.data) (keys.map Datum.data)
      (hash160 (Context.scriptHashProgram witnessHash) = scriptHash) := by
  have hitems : i.witnessItems = "" :: (signatures.map Datum.text ++ [script.text]) := by
    rw [Input.witnessItems, hwitness]
    rfl
  have hseed : Program.seed (Program.innerItems i.witnessItems) =
      Stack.extend [] (signatures.map Datum.value) := by
    rw [← Program.seed_texts, hitems, Program.innerItems]
    simp
  have hsubstitute : Context.substitute i = .ok (Context.scriptHashProgram witnessHash) :=
    (Context.substitute_p2sh htype).mpr ⟨program, by rw [hscriptSig]; rfl, hprogram⟩
  have hlast : i.witnessItems.getLast? = some script.text := by
    rw [hitems, ← List.cons_append, List.getLast?_concat]
  have hcontext : Context.ofInput tx index =
      .ok ⟨.segwit, index, script.data, i.prevout.value⟩ :=
    (Context.ofInput_of_scriptHashProgram hi (by rw [hwitness]; rfl) hsubstitute).mpr
      ⟨script.text, script.data, hlast, script.spells, rfl⟩
  have hclassify : Template.classify i = .ok .p2shP2wsh := by
    obtain ⟨d, ds, hcons⟩ := List.exists_cons_of_ne_nil hrequired
    obtain ⟨third, rest, hrest⟩ : ∃ third rest,
        ds.map Datum.text ++ [script.text] = third :: rest :=
      List.exists_cons_of_ne_nil (by simp)
    rw [Template.classify_eq_ok]
    refine ⟨htype, ⟨"", d.text, third, rest, ?_⟩, _, hscript,
      Lock.csvToken_not_mem_multiSig _ _, Lock.dropToken_not_mem_multiSig _ _⟩
    rw [hwitness, hcons, List.map_cons, List.cons_append, hrest]
  have hrun := program_p2shP2wsh hclassify hlock hscriptSig hscript
  rw [hseed, List.append_assoc] at hrun
  refine restsOn_of_leads hi hrun rfl hlimit hcontext hskeleton (Asm.pushes_literal hprogram)
    hhash ?_
  intro accepted s' calls hcheck
  exact ⟨_, Runner.leads_multiSig signatures keys hsignatures hkeys
    (allows_of_unlimited hlimit index _) hcheck⟩

/-- What a spend with several signatures comes to, with the redeem script in the open and
nested in a witness program. -/
theorem multiSig_spends :
    (i.witness = none →
      i.scriptSigTokens = "OP_0" :: (Asm.pushAll signatures ++ script.push) →
      i.redeemScript? = some (Lock.multiSig signatures.length keys) →
      v.RestsOn tx index .p2sh skeleton .verifyLegacy
        ⟨.legacy, index, script.data, i.prevout.value⟩
        (signatures.map Datum.data) (keys.map Datum.data) (hash160 script.data = scriptHash)) ∧
    (∀ program, ∀ witnessHash : Hash256, signatures ≠ [] →
      i.witness = some ("" :: (signatures.map Datum.text ++ [script.text])) →
      i.scriptSigTokens = ["OP_PUSHBYTES_34", program] →
      Hex.decode program = .ok (Context.scriptHashProgram witnessHash) →
      i.witnessScript? = some (Lock.multiSig signatures.length keys) →
      v.RestsOn tx index .p2shP2wsh skeleton .verifySegwit
        ⟨.segwit, index, script.data, i.prevout.value⟩
        (signatures.map Datum.data) (keys.map Datum.data)
        (hash160 (Context.scriptHashProgram witnessHash) = scriptHash)) := by
  constructor
  · intro hwitness hscriptSig hredeem
    exact restsOn_p2sh_multiSig hi htype hlock hhash hlimit hskeleton hsignatures hkeys hwitness
      hscriptSig hredeem
  · intro program witnessHash hrequired hwitness hscriptSig hprogram hscript
    exact restsOn_p2shP2wsh_multiSig hi htype hlock hhash hlimit hskeleton hsignatures hkeys
      hrequired hwitness hscriptSig hprogram hscript

end Spends

/-- Two signatures, two keys and a script, of a single byte each. -/
def cosigners : List Datum := [.ofBytes [0x30] (by decide), .ofBytes [0x31] (by decide)]

def cosignerKeys : List Datum := [.ofBytes [0x02] (by decide), .ofBytes [0x03] (by decide)]

def cosignedScript : Datum := .ofBytes [0x51] (by decide)

def cosignedLock : Hash160 :=
  #v[0xda, 0x17, 0x45, 0xe9, 0xb5, 0x49, 0xbd, 0x0b, 0xfa, 0x1a, 0x56, 0x99, 0x71, 0xc7, 0x7e,
    0xba, 0x30, 0xcd, 0x5a, 0x4b]

/-- An output that both have to sign for, unlocked by their signatures and the script. -/
def cosigned : Input :=
  { Input.spending .p2sh
      "OP_HASH160 OP_PUSHBYTES_20 da1745e9b549bd0bfa1a569971c77eba30cd5a4b OP_EQUAL" with
    scriptSigAsm := "OP_0 OP_PUSHBYTES_1 30 OP_PUSHBYTES_1 31 OP_PUSHBYTES_1 51"
    redeemScriptAsm := some ("OP_PUSHNUM_2 OP_PUSHBYTES_1 02 OP_PUSHBYTES_1 03 OP_PUSHNUM_2 " ++
      "OP_CHECKMULTISIG") }

/-- The same, with the script in the witness. -/
def cosignedNested : Input :=
  { cosigned with
    scriptSigAsm := "OP_PUSHBYTES_34 " ++ zeroProgram
    witness := some ["", "30", "31", "51"]
    redeemScriptAsm := none
    witnessScriptAsm := cosigned.redeemScriptAsm }

theorem multiSig_spends_cosigned :
    (∃ skeleton, trusting.RestsOn (.ofInputs [cosigned]) 0 .p2sh skeleton .verifyLegacy
      ⟨.legacy, 0, [0x51], 0⟩ [[0x30], [0x31]] [[0x02], [0x03]]
      (hash160 [0x51] = cosignedLock)) ∧
    (∃ skeleton, trusting.RestsOn (.ofInputs [cosignedNested]) 0 .p2shP2wsh skeleton .verifySegwit
      ⟨.segwit, 0, [0x51], 0⟩ [[0x30], [0x31]] [[0x02], [0x03]]
      (hash160 (Context.scriptHashProgram (Vector.replicate 32 0)) = cosignedLock)) := by
  have hlock : Asm.parse cosigned.prevout.scriptAsm =
      Lock.scriptHash "da1745e9b549bd0bfa1a569971c77eba30cd5a4b" := rfl
  have hhash : Hex.decode "da1745e9b549bd0bfa1a569971c77eba30cd5a4b" = .ok cosignedLock.toList :=
    rfl
  have hscript : cosigned.redeemScript? = some (Lock.multiSig 2 cosignerKeys) := rfl
  obtain ⟨skeleton, hskeleton⟩ :
      ∃ skeleton, (Transaction.ofInputs [cosigned]).skeleton = .ok skeleton := ⟨_, rfl⟩
  obtain ⟨nested, hnested⟩ :
      ∃ skeleton, (Transaction.ofInputs [cosignedNested]).skeleton = .ok skeleton := ⟨_, rfl⟩
  constructor
  · have hspends := @multiSig_spends trusting (.ofInputs [cosigned]) 0 cosigned _ _ skeleton
      cosigners cosignerKeys cosignedScript rfl rfl hlock hhash rfl hskeleton (by decide)
      (by decide)
    exact ⟨skeleton, hspends.1 rfl rfl hscript⟩
  · have hspends := @multiSig_spends trusting (.ofInputs [cosignedNested]) 0 cosignedNested _ _
      nested cosigners cosignerKeys cosignedScript rfl rfl hlock hhash rfl hnested (by decide)
      (by decide)
    exact ⟨nested, hspends.2 zeroProgram (Vector.replicate 32 0) (by decide) rfl rfl
      rfl hscript⟩

end Validator
end SpendCheck
