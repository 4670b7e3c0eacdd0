import SpendCheck.Proofs.Bytes.Hex
import SpendCheck.Proofs.Script.Outcomes
import SpendCheck.Proofs.Script.Sequence
import SpendCheck.Proofs.Spend.Reconstruct

/-!
# One form for data

Data gets on the stack as a token on its own, behind either kind of push, with the witness, or as
a hash.  Every one of these ways decodes what it is given, so no literal on the stack is hex, and
an item of data stands there as its bytes, whichever way it came and in whichever case it was
written.  So the two comparisons compare bytes.
-/

namespace SpendCheck

open Exec

/-- Data has no other form than its bytes. -/
def StackValue.Canonical : StackValue → Prop
  | literal token => ¬ Hex.IsHex token
  | _ => True

def Stack.Canonical (stack : Stack) : Prop := ∀ value ∈ stack, value.Canonical

theorem StackValue.canonical_ofToken (token : String) : (ofToken token).Canonical := by
  rw [ofToken]
  cases hdata : Hex.decode token with
  | ok data => exact trivial
  | error error => exact Hex.not_isHex_of_decode hdata

namespace Stack

theorem Canonical.cons {value : StackValue} {stack : Stack} (hvalue : value.Canonical)
    (hstack : stack.Canonical) : Canonical (value :: stack) :=
  List.forall_mem_cons.mpr ⟨hvalue, hstack⟩

end Stack

/-! ## What programs start from -/

theorem Program.canonical_seed (items : List String) : (seed items).Canonical := by
  intro value hvalue
  obtain ⟨item, -, rfl⟩ := List.mem_map.mp (List.mem_reverse.mp hvalue)
  exact StackValue.canonical_ofToken item

theorem Program.canonical_stack {i : Input} {program : Program} (h : ofInput i = .ok program) :
    program.stack.Canonical := by
  obtain ⟨template, _, -, -, rfl⟩ := ofInput_eq_ok.mp h
  cases template with
  | p2wpkh | p2shP2wpkh | p2wsh | p2shP2wsh => exact canonical_seed _
  | p2pkh | p2sh | taproot => exact fun value hvalue => absurd hvalue List.not_mem_nil

/-! ## What tokens leave -/

theorem Opcode.canonical_of_effect {op : Opcode} {stack : Stack} {e : Effect}
    (h : op.effect stack = .ok e) (hstack : stack.Canonical) : e.stack.Canonical := by
  obtain ⟨operands, left, below, rfl, hleft, -, hforms⟩ := stack_of_effect h
  rw [hleft]
  refine List.forall_mem_append.mpr ⟨fun value hvalue => ?_, (List.forall_mem_append.mp hstack).2⟩
  obtain hmem | ⟨data, rfl⟩ | ⟨b, rfl⟩ | ⟨token, rfl⟩ := hforms value hvalue
  · exact hstack value hmem
  · exact trivial
  · exact trivial
  · exact StackValue.canonical_ofToken token

/-- A push of stated length puts the same value on the stack as one of any length. -/
theorem Push.eq_ofToken_of_value {push : Push} {token : String} {value : StackValue}
    (h : push.value token = .ok value) : value = .ofToken token := by
  cases push with
  | any => exact (Except.ok.inj h).symm
  | exactly length =>
    cases hdata : Hex.decode token with
    | error error => simp [Push.value, hdata] at h
    | ok data =>
      obtain ⟨-, rfl⟩ : data.length = length.toNat ∧ .bytes data = value := by
        simpa [Push.value, hdata, ite_eq_iff] using h
      exact (StackValue.ofToken_eq_bytes.mpr hdata).symm

namespace Runner

variable {tx : Transaction} {r : Runner} {m m' : Machine} {s s' : Session tx} {calls : List Call}

theorem canonical_of_feed {token : String} (h : Yields (r.feed m token) s m' s' calls)
    (hstack : m.stack.Canonical) : m'.stack.Canonical := by
  obtain ⟨_, value, -, hvalue, hm'⟩ | ⟨op, e, -, he, hm'⟩ := stack_of_feed h
  · rw [hm', Push.eq_ofToken_of_value hvalue]
    exact .cons (StackValue.canonical_ofToken token) hstack
  · have hleft : e.stack.Canonical := Opcode.canonical_of_effect he hstack
    obtain hm' | ⟨accepted, hm'⟩ := hm'
    · rwa [hm']
    · rw [hm']
      exact .cons trivial hleft

theorem canonical_of_leads {tokens : Asm} (h : r.Leads tokens m s m' s' calls)
    (hstack : m.stack.Canonical) : m'.stack.Canonical := by
  induction tokens generalizing m s calls with
  | nil =>
    obtain ⟨rfl, -, -⟩ := leads_nil.mp h
    exact hstack
  | cons token tokens ih =>
    obtain ⟨_, _, _, _, hfeed, hrest, -⟩ := leads_cons.mp h
    exact ih hrest (canonical_of_feed hfeed hstack)

end Runner

/-! ## Items of data -/

/-- How many items of the witness stand in front of those that a program starts from. -/
def Template.leading : Template → Nat
  | p2wsh | p2shP2wsh => 1
  | _ => 0

/-- The value is what an item of these bytes has become that was put on the stack: as part of the
witness that a program starts from, as hex that a machine took in, be it a token on its own or the
data of a push, or as the hash of what was on top. -/
inductive StandsFor : StackValue → Bytes → Prop
  | witness {i : Input} {program : Program} {k : Nat} {text : String} {data : Bytes}
    {value : StackValue} (hprogram : Program.ofInput i = .ok program)
    (htext : i.witnessItems[program.template.leading + k]? = some text)
    (hdata : Hex.decode text = .ok data) (hvalue : program.stack.bottomFirst[k]? = some value) :
    StandsFor value data
  | token {tx : Transaction} {r : Runner} {m m' : Machine} {s s' : Session tx} {calls : List Call}
    {text : String} {data : Bytes} {value : StackValue} (hdata : Hex.decode text = .ok data)
    (hfeed : Yields (r.feed m text) s m' s' calls) (htop : m'.stack = value :: m.stack) :
    StandsFor value data
  | hash160 {data : Bytes} {below : Stack} {value : StackValue}
    (heffect : Opcode.hash160.effect (.bytes data :: below) = .ok (.settled (value :: below))) :
    StandsFor value (SpendCheck.hash160 data).toList
  | sha256 {data : Bytes} {below : Stack} {value : StackValue}
    (heffect : Opcode.sha256.effect (.bytes data :: below) = .ok (.settled (value :: below))) :
    StandsFor value (Sha256.hash data).toList

theorem Program.eq_ofToken_of_stackOf {i : Input} {template : Template} {k : Nat} {text : String}
    {value : StackValue} (htext : i.witnessItems[template.leading + k]? = some text)
    (hvalue : (stackOf i template).bottomFirst[k]? = some value) : value = .ofToken text := by
  -- An item of a slice of the witness is the item at its place in the witness.
  have hslice : ∀ items : List String, items.IsPrefix (i.witnessItems.drop template.leading) →
      (seed items).bottomFirst[k]? = some value → value = .ofToken text := by
    intro items hprefix hitems
    rw [bottomFirst_seed, List.getElem?_map] at hitems
    obtain ⟨item, hitem, rfl⟩ := Option.map_eq_some_iff.mp hitems
    obtain ⟨hk, rfl⟩ := List.getElem?_eq_some_iff.mp hitem
    have hplace := List.prefix_iff_getElem?.mp hprefix k hk
    rw [List.getElem?_drop, htext] at hplace
    rw [Option.some.inj hplace]
  cases template with
  | p2wpkh | p2shP2wpkh => exact hslice _ (List.take_prefix ..) hvalue
  | p2wsh | p2shP2wsh => exact hslice _ (List.dropLast_prefix _) hvalue
  | p2pkh | p2sh | taproot => simp [stackOf, Stack.bottomFirst] at hvalue

/-- Whichever way an item came, its value is its bytes. -/
theorem StandsFor.eq_bytes {value : StackValue} {data : Bytes} (h : StandsFor value data) :
    value = .bytes data := by
  cases h with
  | witness hprogram htext hdata hvalue =>
    obtain ⟨template, _, -, -, rfl⟩ := Program.ofInput_eq_ok.mp hprogram
    rw [Program.eq_ofToken_of_stackOf htext hvalue]
    exact StackValue.ofToken_eq_bytes.mpr hdata
  | token hdata hfeed htop =>
    obtain ⟨_, rfl, -, -⟩ := Runner.ready_of_feed_hex hdata hfeed
    exact (List.cons.inj htop).1.symm
  | hash160 heffect | sha256 heffect =>
    obtain ⟨rfl, -⟩ := List.cons.inj (Effect.settled.inj (Except.ok.inj heffect))
    rfl

namespace Opcode

variable {first second : StackValue} {below : Stack}

theorem effect_equal_data {a b : Bytes} (hfirst : StandsFor first a)
    (hsecond : StandsFor second b) : equal.effect (first :: second :: below) =
      .ok (.settled (.bool (decide (a = b)) :: below)) := by
  rw [hfirst.eq_bytes, hsecond.eq_bytes]
  simp [effect]

theorem effect_equalVerify_data {a b : Bytes} (hfirst : StandsFor first a)
    (hsecond : StandsFor second b) : equalVerify.effect (first :: second :: below) =
      if a = b then .ok (.settled below) else .error (.verifyFailed first second) := by
  rw [hfirst.eq_bytes, hsecond.eq_bytes]
  simp [effect]

theorem effect_of_ne (h : first ≠ second) (below : Stack) :
    equal.effect (first :: second :: below) = .ok (.settled (.bool false :: below)) ∧
    equalVerify.effect (first :: second :: below) = .error (.verifyFailed first second) := by
  simp [effect, h]

end Opcode

/-- No literal on a stack that an evaluation gets to is hex.  The comparisons tell items of data
apart by their bytes, whichever way they came and in whichever case they were written, and take
none of them for anything but data. -/
theorem Runner.canonical_data :
    (∀ (i : Input) (program : Program) (tx : Transaction) (r : Runner) (tokens : Asm)
      (m : Machine) (s s' : Session tx) (calls : List Call), Program.ofInput i = .ok program →
      r.Leads tokens (.start program.stack) s m s' calls →
      ∀ text, .literal text ∈ m.stack → ¬ Hex.IsHex text) ∧
    (∀ first second a b below, StandsFor first a → StandsFor second b →
      Opcode.equal.effect (first :: second :: below) =
        .ok (.settled (.bool (decide (a = b)) :: below)) ∧
      Opcode.equalVerify.effect (first :: second :: below) =
        if a = b then .ok (.settled below) else .error (.verifyFailed first second)) ∧
    (∀ value data other below, StandsFor value data → other.bytes? = none →
      Opcode.equal.effect (value :: other :: below) = .ok (.settled (.bool false :: below)) ∧
      Opcode.equal.effect (other :: value :: below) = .ok (.settled (.bool false :: below)) ∧
      Opcode.equalVerify.effect (value :: other :: below) = .error (.verifyFailed value other) ∧
      Opcode.equalVerify.effect (other :: value :: below) = .error (.verifyFailed other value)) ∧
    (∀ text text' data data', Hex.decode text = .ok data → Hex.decode text' = .ok data' →
      (data = data' ↔ text.toLower = text'.toLower)) := by
  refine ⟨?literals, ?data, ?others, fun _ _ _ _ h h' => Hex.eq_iff_toLower_eq h h'⟩
  case literals =>
    intro i program tx r tokens m s s' calls hprogram hlead text hmem
    exact canonical_of_leads hlead (Program.canonical_stack hprogram) _ hmem
  case data =>
    intro first second a b below hfirst hsecond
    exact ⟨Opcode.effect_equal_data hfirst hsecond, Opcode.effect_equalVerify_data hfirst hsecond⟩
  case others =>
    intro value data other below hvalue hother
    have hne : value ≠ other := by
      rintro rfl
      rw [hvalue.eq_bytes] at hother
      cases hother
    obtain ⟨hequal, hverify⟩ := Opcode.effect_of_ne hne below
    obtain ⟨hequal', hverify'⟩ := Opcode.effect_of_ne hne.symm below
    exact ⟨hequal, hequal', hverify, hverify'⟩

namespace Runner

/-- A spend by key hash with data and a literal in its witness. -/
def mixedWitness : Input :=
  { Input.spending .v0P2wpkh "OP_0 OP_PUSHBYTES_20 00" with witness := some ["ABcd", "OP_IF"] }

/-- The same two bytes out of a witness and behind a push, in different case, are equal, and a
literal in the witness equals neither and is no hex after a step. -/
theorem canonical_data_mixedWitness :
    ∃ program m, Program.ofInput mixedWitness = .ok program ∧
      approving.Leads ["OP_DUP"] (.start program.stack)
        (Session.fresh : Session (.ofInputs [])) m Session.fresh [] ∧
      .literal "OP_IF" ∈ m.stack ∧ ¬ Hex.IsHex "OP_IF" ∧
      StandsFor (.bytes [0xab, 0xcd]) [0xab, 0xcd] ∧
      Opcode.equal.effect [.bytes [0xab, 0xcd], .bytes [0xab, 0xcd]] =
        .ok (.settled [.bool true]) ∧
      Opcode.equal.effect [.literal "OP_IF", .bytes [0xab, 0xcd]] =
        .ok (.settled [.bool false]) ∧
      "ABcd".toLower = "abCD".toLower := by
  have hprogram : Program.ofInput mixedWitness = .ok ⟨.p2wpkh, ["OP_DUP", "OP_HASH160", "00",
      "OP_EQUALVERIFY", "OP_CHECKSIG"], [.literal "OP_IF", .bytes [0xab, 0xcd]]⟩ := rfl
  have hallows : approving.Allows 1 := fun _ hlimit => absurd hlimit (by simp [approving])
  have hlead : approving.Leads ["OP_DUP"] (.ready [.literal "OP_IF", .bytes [0xab, 0xcd]] 0)
      (Session.fresh : Session (.ofInputs []))
      (.ready [.literal "OP_IF", .literal "OP_IF", .bytes [0xab, 0xcd]] 1) Session.fresh [] :=
    Asm.turns_dup.leads ⟨_, _, rfl, rfl⟩ hallows
  have hupper : Hex.decode "ABcd" = .ok [0xab, 0xcd] := rfl
  have hlower : Hex.decode "abCD" = .ok [0xab, 0xcd] := rfl
  have hshown : StandsFor (.bytes [0xab, 0xcd]) [0xab, 0xcd] :=
    .witness (k := 0) hprogram rfl hupper rfl
  have hfeed : Yields (approving.feed ⟨[], 1, some (.exactly 2)⟩ "abCD")
      (Session.fresh : Session (.ofInputs [])) (.ready [.bytes [0xab, 0xcd]] 1) Session.fresh [] :=
    (yields_feed_pending rfl).mpr ⟨_, rfl, rfl, rfl, rfl⟩
  have hpushed : StandsFor (.bytes [0xab, 0xcd]) [0xab, 0xcd] := .token hlower hfeed rfl
  obtain ⟨hliterals, hdata, hothers, hcase⟩ := canonical_data
  have hmem : StackValue.literal "OP_IF" ∈
      (Machine.ready [.literal "OP_IF", .literal "OP_IF", .bytes [0xab, 0xcd]] 1).stack :=
    List.mem_cons_self
  exact ⟨_, _, hprogram, hlead, hmem, hliterals _ _ _ _ _ _ _ _ _ hprogram hlead _ hmem, hshown,
    (hdata _ _ _ _ [] hshown hpushed).1, (hothers _ _ _ [] hshown rfl).2.1,
    (hcase _ _ _ _ hupper hlower).mp rfl⟩

end Runner
end SpendCheck
