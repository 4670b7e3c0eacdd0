import SpendCheck.Proofs.Script.Lock
import SpendCheck.Proofs.Validation.Accepts

/-!
# Script hashes bind

Whoever unlocks an output chooses nearly all tokens that run before the lock does.
None of them gets the lock to accept a script with another hash.  A push left open at
the end of the unlocking tokens takes the committed token as its data, but that token
is hex, so it comes to lie on the stack just the same, and the lock finds a machine
that waits for nothing.
-/

namespace SpendCheck

open Exec

namespace Program

/-- The token that a lock by script hash commits to: the redeem script, or the witness
program in its place. -/
def committed? (i : Input) : Template → Option String
  | .p2sh => i.scriptSigTokens.getLast?
  | .p2shP2wpkh => i.scriptSigTokens.getLast?
  | .p2shP2wsh => i.scriptSigTokens[1]?
  | _ => none

/-- The last two tokens of the unlocking script run behind the redeem script. -/
theorem scriptOf_p2sh {i : Input} {script : Asm} :
    scriptOf i .p2sh = .ok script ↔ ∃ pushes opcode data redeem,
      i.scriptSigTokens = pushes ++ [opcode, data] ∧ i.redeemScript? = some redeem ∧
      script = pushes ++ redeem ++ [opcode, data] ++ i.prevout.tokens := by
  rw [scriptOf, p2shScript]
  constructor
  · intro h
    cases hsplit : i.scriptSigTokens.splitTail? 2 with
    | none => simp [hsplit] at h
    | some parts =>
      obtain ⟨pushes, push⟩ := parts
      cases hredeem : i.redeemScript? with
      | none => simp [hsplit, hredeem] at h
      | some redeem =>
        obtain rfl : pushes ++ redeem ++ push ++ i.prevout.tokens = script := by
          simpa [hsplit, hredeem] using h
        obtain ⟨happend, hlength⟩ := Asm.append_of_splitTail? hsplit
        obtain ⟨opcode, data, rfl⟩ := List.length_eq_two.mp hlength
        exact ⟨pushes, opcode, data, redeem, happend.symm, rfl, rfl⟩
  · intro h
    obtain ⟨pushes, opcode, data, redeem, happend, hredeem, rfl⟩ := h
    have hsplit : i.scriptSigTokens.splitTail? 2 = some (pushes, [opcode, data]) := by
      simp [happend, Asm.splitTail?, List.splitAt_eq]
    simp [hsplit, hredeem]

theorem scriptOf_committed {i : Input} {template : Template} {script : Asm} {token : String}
    (hscript : scriptOf i template = .ok script) (htoken : committed? i template = some token) :
    ∃ before, script = before ++ token :: i.prevout.tokens := by
  cases template with
  | p2sh =>
    replace htoken : i.scriptSigTokens.getLast? = some token := htoken
    obtain ⟨pushes, opcode, data, redeem, happend, -, rfl⟩ := scriptOf_p2sh.mp hscript
    obtain rfl : data = token := by simpa [happend] using htoken
    exact ⟨pushes ++ redeem ++ [opcode], by simp⟩
  | p2shP2wpkh =>
    replace htoken : i.scriptSigTokens.getLast? = some token := htoken
    obtain ⟨before, hbefore⟩ := List.getLast?_eq_some_iff.mp htoken
    obtain rfl := Except.ok.inj hscript
    exact ⟨Opcode.checkSig.render :: before, by simp [hbefore]⟩
  | p2shP2wsh =>
    replace htoken : i.scriptSigTokens[1]? = some token := htoken
    rw [scriptOf, p2shP2wshScript, htoken] at hscript
    cases hwitness : i.witnessScript? with
    | none => simp [hwitness] at hscript
    | some inner =>
      obtain rfl : inner ++ [token] ++ i.prevout.tokens = script := by
        simpa [hwitness] using hscript
      exact ⟨inner, by simp⟩
  | _ => simp [committed?] at htoken

/-- A witness script and the opcode that hashes it stand around the start of the lock. -/
theorem scriptOf_p2wsh {i : Input} {script : Asm} {item : String}
    (hscript : scriptOf i .p2wsh = .ok script) (hitem : i.witnessItems.getLast? = some item) :
    ∃ before, script = before ++ item :: ("OP_SHA256" :: i.prevout.tokens ++ ["OP_EQUAL"]) := by
  rw [scriptOf, p2wshScript, hitem] at hscript
  cases hwitness : i.witnessScript? with
  | none => simp [hwitness] at hscript
  | some inner =>
    obtain rfl : inner ++ [item, "OP_SHA256"] ++ i.prevout.tokens ++ ["OP_EQUAL"] = script :=
      Except.ok.inj (by rw [hwitness] at hscript; exact hscript)
    exact ⟨inner, by simp⟩

end Program

namespace Runner

variable {tx : Transaction} {r : Runner} {m : Machine} {s s' : Session tx} {stack : Stack}
  {steps : Nat} {calls : List Call} {before : Asm} {token : String} {data : Bytes}

/-- Whatever runs before it, a lock that compares hashes and leaves only the outcome
`true` has met data with its hash. -/
theorem hash_of_leads {Hash : Type} [DecidableEq Hash] {hashOf : Bytes → Hash} {hash : Hash}
    {lock : Asm} {n : Nat}
    (hlock : Asm.Turns lock n fun stack stack' => ∃ data below, stack = .bytes data :: below ∧
      stack' = .bool (decide (hashOf data = hash)) :: below)
    (hdata : Hex.decode token = .ok data) (htrue : stack.AllTrue)
    (hlead : r.Leads (before ++ token :: lock) m s (.ready stack steps) s' calls) :
    hashOf data = hash := by
  obtain ⟨m₁, s₁, _, _, -, hbehind, -⟩ := leads_append.mp hlead
  obtain ⟨m₂, s₂, _, _, htoken, hlocked, -⟩ := leads_cons.mp hbehind
  obtain ⟨steps₂, rfl, rfl, -⟩ := ready_of_feed_hex hdata htoken
  obtain ⟨_, ⟨data', below, hcons, rfl⟩, -, hready, -⟩ := (hlock ..).mp hlocked
  obtain ⟨rfl, -⟩ : data = data' ∧ m₁.stack = below := by simpa using hcons
  obtain ⟨rfl, -⟩ := Machine.ready_inj.mp hready
  simpa using htrue.top

/-- What a script that ends in a committed token and the lock has to do to pass: it comes
to a stack that holds the committed data and nothing but the outcome `true` below it.
The lock adds a single outcome of its own. -/
theorem leads_scriptHash {hash : String} {scriptHash : Hash160}
    (hhash : Hex.decode hash = .ok scriptHash.toList) (hdata : Hex.decode token = .ok data) :
    (∃ stack steps, r.Leads (before ++ token :: Lock.scriptHash hash) m s (.ready stack steps)
        s' calls ∧ stack.AllTrue) ↔
      hash160 data = scriptHash ∧ ∃ below steps,
        r.Leads (before ++ [token]) m s (.ready (.bytes data :: below) steps) s' calls ∧
        (∀ value ∈ below, value = .bool true) ∧ r.Allows (steps + 3) := by
  have hsplit : before ++ token :: Lock.scriptHash hash =
      before ++ [token] ++ Lock.scriptHash hash := by simp
  rw [hsplit]
  constructor
  · intro h
    obtain ⟨stack, steps, hlead, htrue⟩ := h
    obtain ⟨m₁, s₁, c₁, c₂, hcommitted, hlocked, rfl⟩ := leads_append.mp hlead
    -- A push left open before the committed token is closed by it.
    obtain ⟨m₂, s₂, c₃, c₄, -, htoken, -⟩ := leads_append.mp hcommitted
    obtain ⟨steps₁, rfl, -, -⟩ := ready_of_feed_hex hdata (leads_singleton.mp htoken)
    obtain ⟨_, ⟨data', below, hcons, rfl⟩, hsteps, hready, rfl, rfl⟩ :=
      (Asm.turns_scriptHash hhash ..).mp hlocked
    obtain ⟨rfl, rfl⟩ : data = data' ∧ m₂.stack = below := by simpa using hcons
    obtain ⟨rfl, -⟩ := Machine.ready_inj.mp hready
    obtain ⟨hmatch, hbelow⟩ := Stack.allTrue_cons.mp htrue
    rw [List.append_nil]
    exact ⟨by simpa using hmatch, m₂.stack, steps₁, hcommitted, hbelow, hsteps⟩
  · intro h
    obtain ⟨hmatch, below, steps, hcommitted, hbelow, hsteps⟩ := h
    have hlocked := (Asm.turns_scriptHash hhash).leads (s := s') ⟨data, below, rfl, rfl⟩ hsteps
    exact ⟨_, _, leads_append.mpr ⟨_, _, _, _, hcommitted, hlocked, (List.append_nil _).symm⟩,
      Stack.allTrue_cons.mpr ⟨by simpa using hmatch, hbelow⟩⟩

end Runner

namespace Validator

variable {v : Validator} {tx : Transaction} {index : Nat} {i : Input}

/-- The script that an accepted input reveals has the hash that its lock names, under any
verifier and configuration.  A lock by script hash holds it against the committed token
and a witness program against the last item of the witness. -/
theorem script_hash_of_accepts (hi : tx.inputs[index]? = some i) (haccepts : v.Accepts tx index) :
    (∀ template token hash data, ∀ scriptHash : Hash160,
      Template.classify i = .ok template → Program.committed? i template = some token →
      i.prevout.tokens = Lock.scriptHash hash → Hex.decode hash = .ok scriptHash.toList →
      Hex.decode token = .ok data →
      hash160 data = scriptHash ∧ ∃ before stack,
        Program.ofInput i = .ok ⟨template, before ++ token :: i.prevout.tokens, stack⟩) ∧
    (∀ item hash data, ∀ scriptHash : Hash256,
      Template.classify i = .ok .p2wsh → i.witnessItems.getLast? = some item →
      i.prevout.tokens = Lock.witnessScriptHash hash → Hex.decode hash = .ok scriptHash.toList →
      Hex.decode item = .ok data →
      Sha256.hash data = scriptHash) := by
  constructor
  · intro template token hash data scriptHash hclassify htoken hlock hhash hdata
    obtain ⟨script, stack, steps, s', hscript, hlead, htrue⟩ :=
      leads_of_accepts hi hclassify haccepts
    obtain ⟨before, rfl⟩ := Program.scriptOf_committed hscript htoken
    refine ⟨?_, before, Program.stackOf i template, Program.ofInput_eq_ok.mpr
      ⟨template, _, Template.classify_eq_ok.mp hclassify, hscript, rfl⟩⟩
    rw [hlock] at hlead
    exact Runner.hash_of_leads (Asm.turns_scriptHash hhash) hdata htrue hlead
  · intro item hash data scriptHash hclassify hitem hlock hhash hdata
    obtain ⟨script, stack, steps, s', hscript, hlead, htrue⟩ :=
      leads_of_accepts hi hclassify haccepts
    obtain ⟨before, rfl⟩ := Program.scriptOf_p2wsh hscript hitem
    rw [hlock] at hlead
    exact Runner.hash_of_leads (Asm.turns_witnessScriptHash hhash) hdata htrue hlead

/-- Two outputs locked by the hashes of one and the same script of a single byte, and
unlocked with it. -/
def hashLocked : Transaction := .ofInputs [
  { Input.spending .p2sh
      "OP_HASH160 OP_PUSHBYTES_20 da1745e9b549bd0bfa1a569971c77eba30cd5a4b OP_EQUAL" with
    scriptSigAsm := "OP_PUSHBYTES_1 51"
    redeemScriptAsm := some "aa aa OP_EQUAL" },
  { Input.spending .v0P2wsh
      "OP_0 OP_PUSHBYTES_32 4ae81572f06e1b88fd5ced7a1a000945432e83e1551e6f721ee9c00b8cc33260" with
    witness := some ["", "51"]
    witnessScriptAsm := some "aa aa OP_EQUAL" }]

theorem script_hash_of_accepts_hashLocked :
    hash160 [0x51] = #v[0xda, 0x17, 0x45, 0xe9, 0xb5, 0x49, 0xbd, 0x0b, 0xfa, 0x1a, 0x56, 0x99,
      0x71, 0xc7, 0x7e, 0xba, 0x30, 0xcd, 0x5a, 0x4b] ∧
    Sha256.hash [0x51] = #v[0x4a, 0xe8, 0x15, 0x72, 0xf0, 0x6e, 0x1b, 0x88, 0xfd, 0x5c, 0xed,
      0x7a, 0x1a, 0x00, 0x09, 0x45, 0x43, 0x2e, 0x83, 0xe1, 0x55, 0x1e, 0x6f, 0x72, 0x1e, 0xe9,
      0xc0, 0x0b, 0x8c, 0xc3, 0x32, 0x60] := by
  have hfirst : standard.Accepts hashLocked 0 := by decide +kernel
  have hsecond : standard.Accepts hashLocked 1 := by decide +kernel
  exact ⟨((script_hash_of_accepts rfl hfirst).1 .p2sh "51"
      "da1745e9b549bd0bfa1a569971c77eba30cd5a4b" [0x51] _ rfl rfl rfl rfl rfl).1,
    (script_hash_of_accepts rfl hsecond).2 "51"
      "4ae81572f06e1b88fd5ced7a1a000945432e83e1551e6f721ee9c00b8cc33260" [0x51] _ rfl rfl
      rfl rfl rfl⟩

end Validator
end SpendCheck
