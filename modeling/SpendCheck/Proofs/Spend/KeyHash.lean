import SpendCheck.Proofs.Script.Lock
import SpendCheck.Proofs.Validation.Accepts

/-!
# Key hashes bind

A lock by key hash ends in a signature check, and the check that runs before it lets
no key through but one with the hash.  So whatever unlocks such an output, the last
question to the verifier is about the key that the lock names, and conversely a
signature and a key that pass both checks are all that it takes.
-/

namespace SpendCheck

open Exec

namespace Runner

variable {tx : Transaction} {r : Runner} {calls : List Call}

/-- What a lock by key hash asks for where nothing has been asked before. -/
theorem leads_keyHash_fresh {push : Asm} {keyHash : Hash160} {context : Context}
    {skeleton : RawTx} {stack : Stack} {steps : Nat} (hpush : Asm.Pushes push keyHash.toList)
    (hcontext : Context.ofInput tx r.inputIndex = .ok context)
    (hskeleton : tx.skeleton = .ok skeleton) (hsteps : r.Allows (steps + 5)) :
    (∃ stack' steps' s',
        r.Leads (["OP_DUP", "OP_HASH160"] ++ push ++ ["OP_EQUALVERIFY"] ++ ["OP_CHECKSIG"])
          (.ready stack steps) (Session.fresh : Session tx) (.ready stack' steps') s' calls ∧
        stack'.AllTrue) ↔
      ∃ key signature below, stack = .bytes key :: .bytes signature :: below ∧
        (∀ value ∈ below, value = .bool true) ∧ hash160 key = keyHash ∧
        r.verifier.approves context.regime.method skeleton context [signature] [key] = true ∧
        calls = [⟨skeleton, context.regime.method, context, [signature], [key], true⟩] := by
  constructor
  · intro h
    obtain ⟨stack', steps', s', hlead, htrue⟩ := h
    obtain ⟨key, signature, below, accepted, rfl, hkey, -, hcheck, hready⟩ :=
      (leads_keyHash hpush).mp hlead
    obtain ⟨rfl, -⟩ := Machine.ready_inj.mp hready
    obtain ⟨haccepted, hbelow⟩ := Stack.allTrue_cons.mp htrue
    obtain rfl : accepted = true := by simpa using haccepted
    obtain ⟨happroves, hcalls⟩ := (Session.yields_checkSignatures_fresh hcontext hskeleton).mp
      ⟨s', yields_check.mp hcheck⟩
    exact ⟨key, signature, below, rfl, hbelow, hkey, happroves.symm, hcalls⟩
  · intro h
    obtain ⟨key, signature, below, rfl, hbelow, hkey, happroves, rfl⟩ := h
    obtain ⟨s', hcheck⟩ := (Session.yields_checkSignatures_fresh hcontext hskeleton).mpr
      ⟨happroves.symm, rfl⟩
    have hlead := (leads_keyHash hpush).mpr
      ⟨key, signature, below, true, rfl, hkey, hsteps, yields_check.mpr hcheck, rfl⟩
    exact ⟨_, _, s', hlead, Stack.allTrue_cons.mpr ⟨rfl, hbelow⟩⟩

end Runner

theorem Program.seed_take_two {i : Input} {first second : String} {rest : List String}
    (hwitness : i.witness = some (first :: second :: rest)) :
    seed (i.witnessItems.take 2) = [.ofToken second, .ofToken first] := by
  rw [Input.witnessItems, hwitness]
  rfl

/-- A signature check finds its operands in two items of a witness just where both are
hex. -/
theorem StackValue.pair_eq_bytes {first second : String} {signature key : Bytes}
    {below : Stack} :
    [ofToken second, ofToken first] = .bytes key :: .bytes signature :: below ↔
      Hex.decode first = .ok signature ∧ Hex.decode second = .ok key ∧ below = [] := by
  rw [List.cons.injEq, List.cons.injEq, ofToken_eq_bytes, ofToken_eq_bytes, eq_comm (a := []),
    and_left_comm]

namespace Validator

variable {v : Validator} {tx : Transaction} {index : Nat} {i : Input} {hash : String}
  {keyHash : Hash160}

section KeyHash

variable (hi : tx.inputs[index]? = some i) (hhash : Hex.decode hash = .ok keyHash.toList)

include hi hhash

theorem last_call_of_accepts_p2pkh (htype : i.prevout.type = .p2pkh)
    (hlock : i.prevout.tokens = Lock.keyHash hash) (haccepts : v.Accepts tx index) :
    i.witness = none ∧ ∃ skeleton code signature key, tx.skeleton = .ok skeleton ∧
      i.prevout.scriptBytes = .ok code ∧ hash160 key = keyHash ∧
      (callsOf (v.checkInput tx index).trace).getLast? =
        some ⟨skeleton, .verifyLegacy, ⟨.legacy, index, code, i.prevout.value⟩, [signature], [key],
          true⟩ := by
  have hclassify : Template.classify i = .ok .p2pkh := Template.classify_eq_ok.mpr htype
  obtain ⟨script, stack, steps, s', hscript, hlead, htrue⟩ :=
    leads_of_accepts hi hclassify haccepts
  obtain rfl : i.scriptSigTokens ++ i.prevout.tokens = script := Except.ok.inj hscript
  rw [hlock] at hlead
  obtain ⟨⟨stack₁, steps₁, pending⟩, s₁, c₁, c₂, -, hlocked, hcalls⟩ :=
    Runner.leads_append.mp hlead
  obtain rfl : pending = none := Runner.pending_of_leads_keyHash hlocked
  obtain ⟨key, signature, below, accepted, -, hkey, -, hcheck, hready⟩ :=
    (Runner.leads_keyHash (Asm.pushes_keyHash hhash)).mp hlocked
  obtain ⟨rfl, -⟩ := Machine.ready_inj.mp hready
  obtain rfl : accepted = true := by simpa using htrue.top
  obtain ⟨context, shared, hcontext, hshared, haccepted, -, rfl⟩ :=
    Session.yields_checkSignatures.mp (Runner.yields_check.mp hcheck)
  obtain ⟨hwitness, code, hcode, rfl⟩ := (Context.ofInput_p2pkh hi htype).mp hcontext
  refine ⟨hwitness, shared.skeleton, code, signature, key, shared.isSkeleton, hcode, hkey, ?_⟩
  rw [hcalls, List.getLast?_append_of_ne_nil _ (List.cons_ne_nil _ _), List.getLast?_singleton,
    Session.callOf, ← haccepted]
  rfl

/-- Where the two pushes of a signature and a key unlock it, no more than the two checks
of the lock decide. -/
theorem report_p2pkh (htype : i.prevout.type = .p2pkh)
    (hlock : i.prevout.tokens = Lock.keyHash hash) (hlimit : v.config.maxSteps = none)
    {signatureHex keyHex : String} {signature key code : Bytes} {skeleton : RawTx}
    (hsignature : Hex.decode signatureHex = .ok signature) (hsignatureNe : signature ≠ [])
    (hkey : Hex.decode keyHex = .ok key) (hkeyNe : key ≠ [])
    (hscriptSig : i.scriptSigTokens =
      Asm.pushOf signature.length signatureHex ++ Asm.pushOf key.length keyHex)
    (hwitness : i.witness = none) (hcode : i.prevout.scriptBytes = .ok code)
    (hskeleton : tx.skeleton = .ok skeleton) :
    ∃ verdict, (v.checkInput tx index).value = .ok ⟨index, .p2pkh, verdict⟩ ∧
      (verdict = .valid ↔ hash160 key = keyHash ∧ v.verifier.approves .verifyLegacy skeleton
        ⟨.legacy, index, code, i.prevout.value⟩ [signature] [key] = true) := by
  have hcontext : Context.ofInput tx index =
      .ok ⟨.legacy, index, code, i.prevout.value⟩ :=
    (Context.ofInput_p2pkh hi htype).mpr ⟨hwitness, code, hcode, rfl⟩
  have hprogram : Program.ofInput i =
      .ok ⟨.p2pkh, i.scriptSigTokens ++ i.prevout.tokens, []⟩ :=
    Program.ofInput_eq_ok.mpr ⟨.p2pkh, _, htype, rfl, rfl⟩
  have hallows := allows_of_unlimited hlimit index
  obtain ⟨verdict, hreport⟩ := exists_report (v := v) hi hprogram rfl
    (Transaction.not_lacks hcontext hskeleton)
  refine ⟨verdict, hreport, ?_⟩
  rw [← accepts_of_value hreport, accepts_iff_leads hi hprogram rfl]
  -- The two pushes leave the signature below the key.
  have hpushes : ∀ m' (s' : Session tx) calls,
      (v.runner index).Leads (i.scriptSigTokens ++ i.prevout.tokens) (.ready [] 0)
          Session.fresh m' s' calls ↔
        (v.runner index).Leads (["OP_DUP", "OP_HASH160"] ++ ["OP_PUSHBYTES_20", hash] ++
            ["OP_EQUALVERIFY"] ++ ["OP_CHECKSIG"])
          (.ready [.bytes key, .bytes signature] 2) Session.fresh m' s' calls := by
    intro m' s' calls
    rw [hscriptSig, hlock, List.append_assoc,
      (Asm.pushes_pushOf hsignature hsignatureNe).leads_append]
    simp only [exists_eq_left, hallows, true_and]
    rw [(Asm.pushes_pushOf hkey hkeyNe).leads_append]
    simp only [exists_eq_left, hallows, true_and]
    rfl
  constructor
  · intro h
    obtain ⟨stack, steps, s', calls, hlead, htrue⟩ := h
    obtain ⟨_, _, below, hcons, -, hhashed, happroves, -⟩ :=
      (Runner.leads_keyHash_fresh (Asm.pushes_keyHash hhash) hcontext hskeleton
        (hallows (2 + 5))).mp ⟨stack, steps, s', (hpushes ..).mp hlead, htrue⟩
    obtain ⟨rfl, rfl, rfl⟩ : key = _ ∧ signature = _ ∧ [] = below := by simpa using hcons
    exact ⟨hhashed, happroves⟩
  · intro h
    obtain ⟨hhashed, happroves⟩ := h
    obtain ⟨stack, steps, s', hlead, htrue⟩ :=
      (Runner.leads_keyHash_fresh (r := v.runner index) (Asm.pushes_keyHash hhash) hcontext
        hskeleton (hallows (2 + 5))).mpr ⟨key, signature, [], rfl, by simp, hhashed, happroves, rfl⟩
    exact ⟨stack, steps, s', _, (hpushes ..).mpr hlead, htrue⟩

end KeyHash

section WitnessKeyHash

theorem program_p2wpkh {first second : String} {rest : List String}
    (htype : i.prevout.type = .v0P2wpkh) (hlock : i.prevout.tokens = Lock.witnessKeyHash hash)
    (hwitness : i.witness = some (first :: second :: rest)) :
    Program.ofInput i = .ok ⟨.p2wpkh,
      ["OP_DUP", "OP_HASH160"] ++ [hash] ++ ["OP_EQUALVERIFY"] ++ ["OP_CHECKSIG"],
      [.ofToken second, .ofToken first]⟩ := by
  have hstack : Program.stackOf i .p2wpkh = [.ofToken second, .ofToken first] :=
    Program.seed_take_two hwitness
  have hscript : Program.scriptOf i .p2wpkh =
      .ok (["OP_DUP", "OP_HASH160"] ++ [hash] ++ ["OP_EQUALVERIFY"] ++ ["OP_CHECKSIG"]) := by
    rw [Program.scriptOf, Program.p2wpkhScript, hlock]
    rfl
  rw [← hstack]
  exact Program.ofInput_eq_ok.mpr
    ⟨.p2wpkh, _, ⟨htype, first, second, rest, hwitness⟩, hscript, rfl⟩

theorem witness_of_accepts_p2wpkh (hi : tx.inputs[index]? = some i)
    (htype : i.prevout.type = .v0P2wpkh) (haccepts : v.Accepts tx index) :
    ∃ first second rest, i.witness = some (first :: second :: rest) := by
  obtain ⟨program, hprogram, -⟩ := exists_program_of_accepts hi haccepts
  obtain ⟨template, _, hfits, -, -⟩ := Program.ofInput_eq_ok.mp hprogram
  cases template <;> simp_all [Template.Fits]

variable (hi : tx.inputs[index]? = some i) (hhash : Hex.decode hash = .ok keyHash.toList)
  (htype : i.prevout.type = .v0P2wpkh) (hlock : i.prevout.tokens = Lock.witnessKeyHash hash)
  (hprogram : i.prevout.scriptBytes = .ok (Context.keyHashProgram keyHash))
  {skeleton : RawTx} (hskeleton : tx.skeleton = .ok skeleton)

include hi htype hprogram in
theorem context_p2wpkh (hwitness : i.witness.isSome = true) :
    Context.ofInput tx index =
      .ok ⟨.segwit, index, Context.keyHashScript keyHash, i.prevout.value⟩ :=
  Context.ofInput_of_keyHashProgram hi hwitness
    ((Context.substitute_v0P2wpkh htype).mpr ⟨hwitness, hprogram⟩)

include hi htype hlock hprogram hskeleton

theorem report_p2wpkh {first second : String} {rest : List String}
    (hwitness : i.witness = some (first :: second :: rest)) :
    ∃ verdict, (v.checkInput tx index).value = .ok ⟨index, .p2wpkh, verdict⟩ := by
  have hcontext := context_p2wpkh hi htype hprogram (by rw [hwitness]; rfl)
  exact exists_report hi (program_p2wpkh htype hlock hwitness) rfl
    (Transaction.not_lacks hcontext hskeleton)

include hhash

/-- The first two items of the witness are all that counts. -/
theorem accepts_p2wpkh_iff (hlimit : v.config.maxSteps = none) {calls : List Call} :
    v.Accepts tx index ∧ callsOf (v.checkInput tx index).trace = calls ↔
      ∃ first second rest signature key, i.witness = some (first :: second :: rest) ∧
        Hex.decode first = .ok signature ∧ Hex.decode second = .ok key ∧
        hash160 key = keyHash ∧
        v.verifier.approves .verifySegwit skeleton
          ⟨.segwit, index, Context.keyHashScript keyHash, i.prevout.value⟩
          [signature] [key] = true ∧
        calls = [⟨skeleton, .verifySegwit,
          ⟨.segwit, index, Context.keyHashScript keyHash, i.prevout.value⟩,
          [signature], [key], true⟩] := by
  have hallows := allows_of_unlimited hlimit index
  constructor
  · intro h
    obtain ⟨first, second, rest, hwitness⟩ := witness_of_accepts_p2wpkh hi htype h.1
    have hcontext := context_p2wpkh hi htype hprogram (by rw [hwitness]; rfl)
    obtain ⟨key, signature, below, hstack, -, hhashed, happroves, hcalls⟩ :=
      (Runner.leads_keyHash_fresh (Asm.pushes_literal hhash) hcontext hskeleton
        (hallows (0 + 5))).mp ((accepts_iff hi (program_p2wpkh htype hlock hwitness) rfl).mp h)
    obtain ⟨hsignature, hkey, -⟩ := StackValue.pair_eq_bytes.mp hstack
    exact ⟨first, second, rest, signature, key, hwitness, hsignature, hkey, hhashed, happroves,
      hcalls⟩
  · intro h
    obtain ⟨first, second, rest, signature, key, hwitness, hsignature, hkey, hhashed, happroves,
      hcalls⟩ := h
    have hcontext := context_p2wpkh hi htype hprogram (by rw [hwitness]; rfl)
    have hstack := StackValue.pair_eq_bytes.mpr ⟨hsignature, hkey, rfl⟩
    exact (accepts_iff hi (program_p2wpkh htype hlock hwitness) rfl).mpr
      ((Runner.leads_keyHash_fresh (r := v.runner index) (Asm.pushes_literal hhash) hcontext
        hskeleton (hallows (0 + 5))).mpr
          ⟨key, signature, [], hstack, by simp, hhashed, happroves, hcalls⟩)

end WitnessKeyHash

/-- The hash of a key of a single byte.  The verifiers that take it look at no key. -/
def shortKeyHash : Hash160 :=
  #v[0xa6, 0xbb, 0x94, 0xc8, 0x79, 0x2c, 0x39, 0x57, 0x85, 0x78, 0x72, 0x80, 0xdc, 0x18, 0x8d,
    0x11, 0x4e, 0x1f, 0x33, 0x9b]

theorem hash160_shortKey : hash160 [0x02] = shortKeyHash := by decide +kernel

/-- Two outputs locked by the hash of one and the same key of a single byte, and unlocked
with it and a signature of a single byte. -/
def keyLocked : Transaction := .ofInputs [
  { Input.spending .p2pkh ("OP_DUP OP_HASH160 OP_PUSHBYTES_20 " ++
      "a6bb94c8792c395785787280dc188d114e1f339b OP_EQUALVERIFY OP_CHECKSIG") with
    scriptSigAsm := "OP_PUSHBYTES_1 30 OP_PUSHBYTES_1 02" },
  { Input.spending .v0P2wpkh
      "OP_0 OP_PUSHBYTES_20 a6bb94c8792c395785787280dc188d114e1f339b" with
    prevout.script := "0014a6bb94c8792c395785787280dc188d114e1f339b"
    witness := some ["30", "02"] }]

end Validator
end SpendCheck
