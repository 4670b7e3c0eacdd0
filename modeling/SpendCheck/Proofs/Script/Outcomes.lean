import SpendCheck.Proofs.Script.Turns

/-!
# Outcomes stay where they are

A script that is accepted leaves nothing but outcomes, and the outcome of a check that
failed is in its way.  Of all opcodes only the two comparisons take an outcome from
the stack: the hashes and the signature checks ask for data, and counts are read off
literals.  So a script without a comparison, whatever else it does, keeps every
outcome that it finds.
-/

namespace SpendCheck

namespace Stack

variable {opcode : Opcode} {stack below : Stack}

/-- Data that comes off a stack was no outcome, and neither is a count. -/
theorem operands_of_popBytes {data : Bytes} (h : stack.popBytes opcode = .ok (data, below)) :
    ∃ operands, stack = operands ++ below ∧ ∀ b, .bool b ∉ operands := by
  obtain rfl := popBytes_eq_ok.mp h
  exact ⟨[.bytes data], rfl, by simp⟩

theorem operands_of_popList {items : List Bytes} (h : stack.popList opcode = .ok (items, below)) :
    ∃ operands, stack = operands ++ below ∧ ∀ b, .bool b ∉ operands := by
  obtain ⟨top, ⟨numeral, rfl, -⟩, rfl⟩ := popList_eq_ok.mp h
  exact ⟨_ :: items.reverse.map .bytes, rfl, by simp⟩

end Stack

/-- What is on the stack once an effect is carried out, but for the decision that it
asks for. -/
def Effect.stack : Effect → Stack
  | settled stack => stack
  | awaits _ stack => stack
  | asks _ _ below => below

namespace Opcode

/-- The mnemonics of the opcodes that take outcomes from the stack. -/
def comparisons : List String := ["OP_EQUAL", "OP_EQUALVERIFY"]

/-- What an opcode does to the stack: it takes operands off, no outcomes among them unless it is a
comparison, and puts on what it reads off its token, what it makes of data, and what was on the
stack already. -/
theorem stack_of_effect {op : Opcode} {stack : Stack} {e : Effect}
    (h : op.effect stack = .ok e) : ∃ operands left below,
      stack = operands ++ below ∧ e.stack = left ++ below ∧
      (∀ b, .bool b ∈ operands → op = .equal ∨ op = .equalVerify) ∧
      ∀ value ∈ left, value ∈ stack ∨ (∃ data, value = .bytes data) ∨ (∃ b, value = .bool b) ∨
        ∃ token, value = .ofToken token := by
  cases op with
  | zero =>
    obtain rfl : .settled stack = e := by simpa [effect] using h
    exact ⟨[], [], stack, rfl, rfl, by simp, by simp⟩
  | dup =>
    cases stack with
    | nil => simp [effect] at h
    | cons top below =>
      obtain rfl : .settled (top :: top :: below) = e := by simpa [effect] using h
      exact ⟨[], [top], top :: below, rfl, rfl, by simp, by simp⟩
  | hash160 | sha256 =>
    obtain ⟨⟨data, below⟩, hpop, hsettled⟩ := bind_eq_ok.mp h
    obtain rfl := Except.ok.inj hsettled
    obtain ⟨operands, hstack, hnone⟩ := Stack.operands_of_popBytes hpop
    exact ⟨operands, [_], below, hstack, rfl, fun b hb => absurd hb (hnone b), by simp⟩
  | equal =>
    obtain _ | ⟨first, _ | ⟨second, below⟩⟩ := stack
    · simp [effect] at h
    · simp [effect] at h
    · obtain rfl : .settled (.bool (first = second) :: below) = e := by simpa [effect] using h
      exact ⟨[first, second], [_], below, rfl, rfl, by simp,
        List.forall_mem_singleton.mpr (.inr (.inr (.inl ⟨_, rfl⟩)))⟩
  | equalVerify =>
    obtain _ | ⟨first, _ | ⟨second, below⟩⟩ := stack
    · simp [effect] at h
    · simp [effect] at h
    · obtain ⟨-, rfl⟩ : first = second ∧ .settled below = e := by
        simpa [effect, ite_eq_iff] using h
      exact ⟨[first, second], [], below, rfl, rfl, by simp, by simp⟩
  | pushData1 =>
    obtain rfl : .awaits .any stack = e := by simpa [effect] using h
    exact ⟨[], [], stack, rfl, rfl, by simp, by simp⟩
  | pushBytes length =>
    obtain rfl : .awaits (.exactly length) stack = e := by simpa [effect] using h
    exact ⟨[], [], stack, rfl, rfl, by simp, by simp⟩
  | checkSig =>
    obtain ⟨⟨key, rest⟩, hkey, hasks⟩ := bind_eq_ok.mp h
    obtain ⟨⟨signature, below⟩, hsignature, hsettled⟩ := bind_eq_ok.mp hasks
    obtain rfl := Except.ok.inj hsettled
    obtain ⟨first, rfl, hfirst⟩ := Stack.operands_of_popBytes hkey
    obtain ⟨second, rfl, hsecond⟩ := Stack.operands_of_popBytes hsignature
    exact ⟨first ++ second, [], below, (List.append_assoc ..).symm, rfl, by simp [hfirst, hsecond],
      by simp⟩
  | checkMultiSig =>
    obtain ⟨⟨keys, rest⟩, hkeys, hasks⟩ := bind_eq_ok.mp h
    obtain ⟨⟨signatures, below⟩, hsignatures, hsettled⟩ := bind_eq_ok.mp hasks
    obtain rfl := Except.ok.inj hsettled
    obtain ⟨first, rfl, hfirst⟩ := Stack.operands_of_popList hkeys
    obtain ⟨second, rfl, hsecond⟩ := Stack.operands_of_popList hsignatures
    exact ⟨first ++ second, [], below, (List.append_assoc ..).symm, rfl, by simp [hfirst, hsecond],
      by simp⟩
  | literal token =>
    obtain rfl : .settled (.ofToken token :: stack) = e := by simpa [effect] using h
    exact ⟨[], [.ofToken token], stack, rfl, rfl, by simp, by simp⟩

/-- Every opcode but a comparison leaves the outcomes on the stack where they are. -/
theorem bool_mem_of_effect {op : Opcode} {stack : Stack} {e : Effect} {b : Bool}
    (h : op.effect stack = .ok e) (hequal : op ≠ .equal) (hverify : op ≠ .equalVerify)
    (hmem : .bool b ∈ stack) : .bool b ∈ e.stack := by
  obtain ⟨operands, left, below, rfl, hleft, hnone, -⟩ := stack_of_effect h
  obtain hoperand | hbelow := List.mem_append.mp hmem
  · obtain hop | hop := hnone b hoperand
    · exact absurd hop hequal
    · exact absurd hop hverify
  · rw [hleft]
    exact List.mem_append_right left hbelow

end Opcode

/-- Either comparison leaves nothing but `true` just where it compares equals and finds
nothing but `true` below them. -/
theorem Asm.turns_comparison {comparison : String}
    (hcomparison : comparison ∈ Opcode.comparisons) :
    ∃ R, Turns [comparison] 1 R ∧ ∀ top stack,
      (∃ stack', R (top :: stack) stack' ∧ ∀ value ∈ stack', value = .bool true) ↔
        ∃ below, stack = top :: below ∧ ∀ value ∈ below, value = .bool true := by
  obtain rfl | rfl : comparison = "OP_EQUAL" ∨ comparison = "OP_EQUALVERIFY" := by
    simpa [Opcode.comparisons] using hcomparison
  · refine ⟨_, turns_equal, fun top stack => ?_⟩
    constructor
    · intro h
      obtain ⟨_, ⟨first, second, below, hcons, rfl⟩, htrue⟩ := h
      obtain ⟨rfl, rfl⟩ : top = first ∧ stack = second :: below := by simpa using hcons
      obtain ⟨heq, hbelow⟩ := List.forall_mem_cons.mp htrue
      obtain rfl : top = second := by simpa using heq
      exact ⟨below, rfl, hbelow⟩
    · intro h
      obtain ⟨below, rfl, hbelow⟩ := h
      exact ⟨_, ⟨top, top, below, rfl, rfl⟩, List.forall_mem_cons.mpr ⟨by simp, hbelow⟩⟩
  · refine ⟨_, turns_equalVerify, fun top stack => ?_⟩
    constructor
    · intro h
      obtain ⟨below, ⟨value, hcons⟩, hbelow⟩ := h
      obtain ⟨rfl, rfl⟩ : top = value ∧ stack = value :: below := by simpa using hcons
      exact ⟨below, rfl, hbelow⟩
    · intro h
      obtain ⟨below, rfl, hbelow⟩ := h
      exact ⟨below, ⟨top, rfl⟩, hbelow⟩

namespace Runner

open Exec

variable {tx : Transaction} {r : Runner} {m m' : Machine} {s s' : Session tx}
  {calls : List Call} {b : Bool}

/-- What a token does to the stack: as data it goes on top, and as an opcode it leaves what its
effect does, with the outcome of a signature check on top where the effect asks for one. -/
theorem stack_of_feed {token : String} (h : Yields (r.feed m token) s m' s' calls) :
    (∃ push value, m.pending = some push ∧ push.value token = .ok value ∧
      m'.stack = value :: m.stack) ∨
    ∃ op e, Opcode.parse token = .ok op ∧ op.effect m.stack = .ok e ∧
      (m'.stack = e.stack ∨ ∃ accepted, m'.stack = .bool accepted :: e.stack) := by
  obtain ⟨stack, steps, pending⟩ := m
  cases pending with
  | some push =>
    obtain ⟨value, hvalue, rfl, -, -⟩ := (yields_feed_pending rfl).mp h
    exact .inl ⟨push, value, rfl, hvalue, rfl⟩
  | none =>
    obtain ⟨-, op, e, hparse, he, hsettle⟩ := yields_feed_ready.mp h
    refine .inr ⟨op, e, hparse, he, ?_⟩
    cases e with
    | settled stack =>
      obtain ⟨rfl, -, -⟩ := yields_settle_settled.mp hsettle
      exact .inl rfl
    | awaits push stack =>
      obtain ⟨rfl, -, -⟩ := yields_settle_awaits.mp hsettle
      exact .inl rfl
    | asks signatures keys below =>
      obtain ⟨accepted, -, rfl⟩ := yields_settle_asks.mp hsettle
      exact .inr ⟨accepted, rfl⟩

theorem bool_mem_of_feed {token : String} (h : Yields (r.feed m token) s m' s' calls)
    (htoken : token ∉ Opcode.comparisons) (hmem : .bool b ∈ m.stack) : .bool b ∈ m'.stack := by
  obtain ⟨_, value, -, -, hstack⟩ | ⟨op, e, hparse, he, hstack⟩ := stack_of_feed h
  · rw [hstack]
    exact List.mem_cons_of_mem value hmem
  · have hspelled : ∀ {comparison : Opcode}, comparison ∈ Opcode.mnemonics →
        comparison.render ∈ Opcode.comparisons → op ≠ comparison := by
      rintro comparison hmnemonic hcomparison rfl
      rw [Opcode.render_of_parse hparse hmnemonic] at hcomparison
      exact htoken hcomparison
    have hkept : .bool b ∈ e.stack := Opcode.bool_mem_of_effect he
      (hspelled (by decide) (by decide)) (hspelled (by decide) (by decide)) hmem
    obtain hstack | ⟨accepted, hstack⟩ := hstack
    · rwa [hstack]
    · rw [hstack]
      exact List.mem_cons_of_mem (.bool accepted) hkept

theorem bool_mem_of_leads {tokens : Asm} (h : r.Leads tokens m s m' s' calls)
    (htokens : ∀ token ∈ tokens, token ∉ Opcode.comparisons) (hmem : .bool b ∈ m.stack) :
    .bool b ∈ m'.stack := by
  induction tokens generalizing m s calls with
  | nil =>
    obtain ⟨rfl, -, -⟩ := leads_nil.mp h
    exact hmem
  | cons token tokens ih =>
    obtain ⟨m₁, s₁, c₁, c₂, hfeed, hrest, -⟩ := leads_cons.mp h
    have hfirst : .bool b ∈ m₁.stack :=
      bool_mem_of_feed hfeed (htokens token List.mem_cons_self) hmem
    exact ih hrest (fun t ht => htokens t (List.mem_cons_of_mem token ht)) hfirst

end Runner
end SpendCheck
