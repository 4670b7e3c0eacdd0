import SpendCheck.Proofs.Script.Lock

/-!
# Signature checks over lists

A check of several signatures finds two lists on the stack, each under a literal that
counts it.  It takes the lists off item by item, the item pushed last first, and puts
them back in the order in which they were pushed.  Counts are written in decimal and
read back as long as they stay below the bound for counts.
-/

namespace SpendCheck

open Exec

/-! ## Counts -/

/-- The token that counts so many items. -/
def StackValue.pushNum (n : Nat) : String := "OP_PUSHNUM_" ++ toString n

namespace StackValue

theorem toList_pushNum (n : Nat) :
    (pushNum n).toList = "OP_PUSHNUM_".toList ++ Nat.toDigits 10 n := by
  rw [pushNum, String.toList_append]
  exact congrArg _ Nat.toList_repr

theorem counts_pushNum {n : Nat} (hn : n < 2 ^ 64) : (literal (pushNum n)).Counts n := by
  refine ⟨toString n, rfl, hn, ?_⟩
  rw [Opcode.toList_toString]
  exact Text.denotes_toDigits n

/-- A count is no hex. -/
theorem ofToken_pushNum (n : Nat) : ofToken (pushNum n) = literal (pushNum n) := by
  cases hdata : Hex.decode (pushNum n) with
  | error e => rw [ofToken, hdata]
  | ok data =>
    have hhead : (pushNum n).toList.head? = some 'O' := by rw [toList_pushNum]; rfl
    exact absurd hhead (Hex.head_ne_of_decode hdata)

end StackValue

theorem Opcode.parse_pushNum (n : Nat) :
    parse (StackValue.pushNum n) = .ok (literal (StackValue.pushNum n)) := by
  have hseventh : (StackValue.pushNum n).toList[7]? = some 'N' := by
    rw [StackValue.toList_pushNum]
    rfl
  have hmnemonics : ∀ op ∈ mnemonics, op.render.toList[7]? ≠ some 'N' := by decide
  apply parse_eq_literal
  · intro op hop heq
    exact hmnemonics op hop (heq ▸ hseventh)
  · intro hprefix
    obtain ⟨rest, hrest⟩ := hprefix
    rw [← hrest] at hseventh
    exact absurd hseventh (by simp)

/-! ## Data that is pushed -/

/-- Data that takes a place on the stack, and hex that spells it. -/
structure Datum where
  text : String
  data : Bytes
  spells : Hex.decode text = .ok data
  nonempty : data ≠ []

namespace Datum

def ofBytes (data : Bytes) (nonempty : data ≠ []) : Datum where
  text := Hex.encode data
  data := data
  spells := Hex.decode_encode data
  nonempty := nonempty

/-- The tokens that push the data. -/
def push (d : Datum) : Asm := Asm.pushOf d.data.length d.text

def value (d : Datum) : StackValue := .bytes d.data

theorem ofToken_text (d : Datum) : StackValue.ofToken d.text = d.value :=
  StackValue.ofToken_eq_bytes.mpr d.spells

end Datum

namespace Asm

/-- Pushes data in the order of the list. -/
def pushAll (ds : List Datum) : Asm := ds.flatMap Datum.push

theorem turns_pushNum (n : Nat) :
    Turns [StackValue.pushNum n] 1 fun stack stack' =>
      stack' = .literal (StackValue.pushNum n) :: stack :=
  turns_of_effect (Opcode.parse_pushNum n) fun stack e => by
    simp [Opcode.effect, StackValue.ofToken_pushNum, eq_comm]

end Asm

/-- A check of as many signatures as are required for a list of keys. -/
def Lock.multiSig (required : Nat) (keys : List Datum) : Asm :=
  [StackValue.pushNum required] ++ Asm.pushAll keys ++ [StackValue.pushNum keys.length] ++
    ["OP_CHECKMULTISIG"]

/-! ## Lists that are popped -/

namespace Stack

/-- A list that was pushed comes off with its count in the order in which it was pushed. -/
theorem popList_extend (op : Opcode) (ds : List Datum) (below : Stack)
    (hcount : ds.length < 2 ^ 64) :
    popList op (.literal (StackValue.pushNum ds.length) :: below.extend (ds.map Datum.value)) =
      .ok (ds.map Datum.data, below) := by
  have hlength : ds.length = (ds.map Datum.data).length := by simp
  refine popList_eq_ok.mpr ⟨_, hlength ▸ StackValue.counts_pushNum hcount, ?_⟩
  simp [extend, Datum.value, List.map_reverse, Function.comp_def]

end Stack

theorem Opcode.effect_checkMultiSig (signatures keys : List Datum) (below : Stack)
    (hsignatures : signatures.length < 2 ^ 64) (hkeys : keys.length < 2 ^ 64) :
    checkMultiSig.effect (.literal (StackValue.pushNum keys.length) ::
        Stack.extend (.literal (StackValue.pushNum signatures.length) ::
          below.extend (signatures.map Datum.value)) (keys.map Datum.value)) =
      .ok (.asks (signatures.map Datum.data) (keys.map Datum.data) below) := by
  simp only [effect, Stack.popList_extend _ keys _ hkeys,
    Stack.popList_extend _ signatures _ hsignatures, ok_bind, pure_except]

namespace Runner

variable {tx : Transaction} {r : Runner} {s s' : Session tx} {calls : List Call} {stack : Stack}
  {steps : Nat}

/-- Pushes of data leave it on the stack, the item pushed last on top. -/
theorem leads_pushAll (ds : List Datum) (hsteps : r.Allows (steps + ds.length)) :
    r.Leads (Asm.pushAll ds) (.ready stack steps) s
      (.ready (stack.extend (ds.map Datum.value)) (steps + ds.length)) s [] := by
  induction ds generalizing stack steps with
  | nil => exact leads_nil.mpr ⟨rfl, rfl, rfl⟩
  | cons d ds ih =>
    have hfewer : r.Allows (steps + 1) := hsteps.mono (by simp)
    have htotal : steps + 1 + ds.length = steps + (d :: ds).length := by
      rw [List.length_cons]
      omega
    have hextend : Stack.extend (d.value :: stack) (ds.map Datum.value) =
        stack.extend ((d :: ds).map Datum.value) := by simp [Stack.extend]
    have hfirst : r.Leads d.push (.ready stack steps) s
        (.ready (d.value :: stack) (steps + 1)) s [] :=
      (Asm.pushes_pushOf d.spells d.nonempty).leads rfl hfewer
    have hrest : r.Leads (Asm.pushAll ds) (.ready (d.value :: stack) (steps + 1)) s
        (.ready (Stack.extend (d.value :: stack) (ds.map Datum.value)) (steps + 1 + ds.length)) s
        [] := ih (htotal ▸ hsteps)
    rw [htotal, hextend] at hrest
    exact leads_append.mpr ⟨_, _, [], [], hfirst, hrest, rfl⟩

/-- Over the signatures it requires, a check puts them to the verifier with the keys, both
in the order in which they were pushed, and leaves the answer in their place. -/
theorem leads_multiSig (signatures keys : List Datum) {accepted : Bool}
    (hsignatures : signatures.length < 2 ^ 64) (hkeys : keys.length < 2 ^ 64)
    (hsteps : r.Allows (steps + keys.length + 3))
    (hcheck : Yields (r.check (signatures.map Datum.data) (keys.map Datum.data)) s accepted s'
      calls) :
    r.Leads (Lock.multiSig signatures.length keys)
      (.ready (stack.extend (signatures.map Datum.value)) steps) s
      (.ready (.bool accepted :: stack) (steps + keys.length + 3)) s' calls := by
  have hrequired : r.Leads [StackValue.pushNum signatures.length]
      (.ready (stack.extend (signatures.map Datum.value)) steps) s
      (.ready (.literal (StackValue.pushNum signatures.length) ::
        stack.extend (signatures.map Datum.value)) (steps + 1)) s [] :=
    (Asm.turns_pushNum _).leads rfl (hsteps.mono (by omega))
  have hpushed := hrequired.append (leads_pushAll keys (hsteps.mono (by omega)))
  have hcounted := hpushed.append
    ((Asm.turns_pushNum keys.length).leads rfl (hsteps.mono (by omega)))
  have hlast : steps + 1 + keys.length + 1 + 1 = steps + keys.length + 3 := by omega
  have hasked : r.Leads ["OP_CHECKMULTISIG"] (.ready (.literal (StackValue.pushNum keys.length) ::
      Stack.extend (.literal (StackValue.pushNum signatures.length) ::
        stack.extend (signatures.map Datum.value)) (keys.map Datum.value))
          (steps + 1 + keys.length + 1)) s
      (.ready (.bool accepted :: stack) (steps + keys.length + 3)) s' calls := by
    have heffect := Opcode.effect_checkMultiSig signatures keys stack hsignatures hkeys
    rw [leads_singleton, yields_feed_ready, hlast]
    exact ⟨hsteps, .checkMultiSig, _, Opcode.parse_checkMultiSig, heffect,
      yields_settle_asks.mpr ⟨accepted, hcheck, rfl⟩⟩
  exact hcounted.append hasked

end Runner
end SpendCheck
