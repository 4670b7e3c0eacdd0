import SpendCheck.Proofs.Text.Numeral
import SpendCheck.Proofs.Trace.Outcome
import SpendCheck.Script.Effect

/-!
# Popping data

What comes off a stack that has data on top, one item or a counted list of them.  The count is
text out of a script and may be far beyond the depth of the stack, so a list that is too short, or
that has something else than data in it, is found out item by item.  Popping it goes no deeper
than the first value that is no data, or than the end of the stack.
-/

namespace SpendCheck

/-- The value is a literal that counts so many items: `OP_PUSHNUM_` and a numeral. -/
def StackValue.Counts (value : StackValue) (n : Nat) : Prop :=
  ∃ numeral : String, value = .literal ("OP_PUSHNUM_" ++ numeral) ∧ n < 2 ^ 64 ∧
    Text.Denotes numeral.toList n

namespace StackValue

variable {value : StackValue} {n : Nat}

theorem pushNum?_eq_some_iff : value.pushNum? = some n ↔ value.Counts n := by
  cases value with
  | bytes data => simp [pushNum?, Counts]
  | bool b => simp [pushNum?, Counts]
  | literal token =>
    rw [pushNum?, Option.bind_eq_some_iff]
    constructor
    · intro h
      obtain ⟨numeral, hlead, hnumeral⟩ := h
      rw [List.isPrefixOf?_eq_some_iff_append_eq] at hlead
      obtain ⟨hn, hdenotes⟩ := Text.numeral?_eq_some_iff.mp hnumeral
      have htoken : token = pushNumLead ++ String.ofList numeral := by
        rw [← String.toList_inj, String.toList_append, String.toList_ofList, hlead]
      exact ⟨String.ofList numeral, congrArg _ htoken, hn, by rwa [String.toList_ofList]⟩
    · intro h
      obtain ⟨numeral, hvalue, hn, hdenotes⟩ := h
      obtain rfl : token = "OP_PUSHNUM_" ++ numeral := literal.inj hvalue
      refine ⟨numeral.toList, ?_, Text.numeral?_eq_some_iff.mpr ⟨hn, hdenotes⟩⟩
      rw [List.isPrefixOf?_eq_some_iff_append_eq, String.toList_append, pushNumLead]

theorem pushNum?_eq_none_iff : value.pushNum? = none ↔ ∀ n, ¬ value.Counts n := by
  simp only [← pushNum?_eq_some_iff, Option.eq_none_iff_forall_ne_some]

/-- A literal states one count. -/
theorem Counts.unique {k : Nat} (hn : value.Counts n) (hk : value.Counts k) : n = k :=
  Option.some.inj ((pushNum?_eq_some_iff.mpr hn).symm.trans (pushNum?_eq_some_iff.mpr hk))

end StackValue

namespace Stack

variable {op : Opcode} {stack below : Stack} {e : ScriptError} {count : Nat}
  {items later : List Bytes}

/-! ## One item -/

theorem popBytes_eq_ok {data : Bytes} :
    stack.popBytes op = .ok (data, below) ↔ stack = .bytes data :: below := by
  cases stack with
  | nil => simp [popBytes]
  | cons top rest => cases top <;> simp [popBytes]

/-- A pop fails where the stack ends, or at a value that is no data. -/
theorem popBytes_eq_error : stack.popBytes op = .error e ↔
    (stack = [] ∧ e = .stackUnderflow) ∨
      ∃ value below, stack = value :: below ∧ value.bytes? = none ∧
        e = .nonDataOperand op value := by
  cases stack with
  | nil => simp [popBytes, @eq_comm _ e]
  | cons top rest => cases top <;> simp [popBytes, StackValue.bytes?, @eq_comm _ e]

/-! ## So many items -/

theorem popMany_zero : stack.popMany op 0 later = .ok (later, stack) := by
  rw [popMany]

/-- Popping so many items is popping one, and then the others in front of it. -/
theorem popMany_succ : stack.popMany op (count + 1) later =
    stack.popBytes op >>= fun popped => popped.2.popMany op count (popped.1 :: later) := rfl

theorem popMany_eq_ok : stack.popMany op count later = .ok (items, below) ↔
    ∃ taken : List Bytes, taken.length = count ∧ stack = taken.map StackValue.bytes ++ below ∧
      items = taken.reverse ++ later := by
  induction count generalizing stack later with
  | zero => simp [popMany_zero, eq_comm, and_comm]
  | succ count ih =>
    rw [popMany_succ]
    simp only [bind_eq_ok, Prod.exists, popBytes_eq_ok, ih]
    constructor
    · intro h
      obtain ⟨data, _, rfl, taken, hlength, rfl, rfl⟩ := h
      exact ⟨data :: taken, by rw [List.length_cons, hlength], rfl, by simp⟩
    · intro h
      obtain ⟨taken, hlength, rfl, rfl⟩ := h
      obtain ⟨data, taken, rfl⟩ := List.exists_cons_of_length_eq_add_one hlength
      exact ⟨data, _, rfl, taken, Nat.succ.inj hlength, rfl, by simp⟩

/-- The pop of a list fails with its first pop of an item that does. -/
theorem popMany_eq_error : stack.popMany op count later = .error e ↔
    ∃ (taken : List Bytes) (rest : Stack), taken.length < count ∧
      stack = taken.map StackValue.bytes ++ rest ∧ rest.popBytes op = .error e := by
  induction count generalizing stack later with
  | zero => simp [popMany_zero]
  | succ count ih =>
    rw [popMany_succ]
    simp only [bind_eq_error, Prod.exists, popBytes_eq_ok, ih]
    constructor
    · intro h
      obtain hfirst | ⟨data, _, rfl, taken, rest, hlength, rfl, hrest⟩ := h
      · exact ⟨[], stack, Nat.succ_pos count, rfl, hfirst⟩
      · exact ⟨data :: taken, rest, Nat.succ_lt_succ hlength, rfl, hrest⟩
    · intro h
      obtain ⟨taken, rest, hlength, rfl, hrest⟩ := h
      cases taken with
      | nil => exact .inl hrest
      | cons data taken =>
        exact .inr ⟨data, _, rfl, taken, rest, Nat.lt_of_succ_lt_succ hlength, rfl, hrest⟩

/-! ## How long it takes -/

/-- The loop that pops so many items comes to this result in so many turns: a turn pops one item,
and the loop ends with the turn that fails. -/
inductive Pops (op : Opcode) :
    Nat → Stack → List Bytes → Nat → Except ScriptError (List Bytes × Stack) → Prop
  | done {stack : Stack} {later : List Bytes} : Pops op 0 stack later 0 (.ok (later, stack))
  | fails {count : Nat} {stack : Stack} {later : List Bytes} {e : ScriptError}
    (hpop : stack.popBytes op = .error e) : Pops op (count + 1) stack later 1 (.error e)
  | next {count turns : Nat} {stack below : Stack} {later : List Bytes} {data : Bytes}
    {result : Except ScriptError (List Bytes × Stack)}
    (hpop : stack.popBytes op = .ok (data, below))
    (hrest : Pops op count below (data :: later) turns result) :
    Pops op (count + 1) stack later (turns + 1) result

variable {turns : Nat} {result : Except ScriptError (List Bytes × Stack)}

theorem Pops.result_eq (h : Pops op count stack later turns result) :
    result = stack.popMany op count later := by
  induction h with
  | done => rw [popMany_zero]
  | fails hpop =>
    rw [popMany_succ, hpop]
    rfl
  | next hpop _ ih =>
    rw [popMany_succ, hpop, ih]
    rfl

theorem Pops.turns_unique {turns' : Nat} {result' : Except ScriptError (List Bytes × Stack)}
    (h : Pops op count stack later turns result) (h' : Pops op count stack later turns' result') :
    turns = turns' := by
  induction h generalizing turns' with
  | done =>
    cases h'
    rfl
  | fails hpop =>
    cases h' with
    | fails => rfl
    | next hpop' => simp [hpop] at hpop'
  | next hpop _ ih =>
    cases h' with
    | fails hpop' => simp [hpop] at hpop'
    | next hpop' hrest =>
      obtain ⟨rfl, rfl⟩ := Prod.mk.inj (Except.ok.inj (hpop.symm.trans hpop'))
      rw [ih hrest]

/-- However large the count, each turn but the last takes an item off the stack. -/
theorem exists_pops (op : Opcode) (count : Nat) (stack : Stack) (later : List Bytes) :
    ∃ turns ≤ stack.length + 1,
      Pops op count stack later turns (stack.popMany op count later) := by
  induction count generalizing stack later with
  | zero =>
    rw [popMany_zero]
    exact ⟨0, Nat.zero_le _, .done⟩
  | succ count ih =>
    rw [popMany_succ]
    cases hpop : stack.popBytes op with
    | error e => exact ⟨1, Nat.le_add_left 1 stack.length, .fails hpop⟩
    | ok popped =>
      obtain ⟨data, below⟩ := popped
      obtain rfl := popBytes_eq_ok.mp hpop
      obtain ⟨turns, hturns, hrest⟩ := ih below (data :: later)
      exact ⟨turns + 1, Nat.succ_le_succ hturns, .next hpop hrest⟩

/-- The loop has one run, and that is no longer than the stack is deep but for the last turn. -/
theorem pops_iff : ∃ n ≤ stack.length + 1, ∀ turns result,
    Pops op count stack later turns result ↔
      turns = n ∧ result = stack.popMany op count later := by
  obtain ⟨n, hn, hpops⟩ := exists_pops op count stack later
  refine ⟨n, hn, fun turns result => ?_⟩
  constructor
  · intro h
    exact ⟨h.turns_unique hpops, h.result_eq⟩
  · rintro ⟨rfl, rfl⟩
    exact hpops

/-! ## A list under its count -/

theorem popList_of_counts {top : StackValue} {n : Nat} (hcount : top.Counts n) :
    popList op (top :: below) = below.popMany op n [] := by
  rw [popList, popValue_cons, ok_bind]
  simp only [StackValue.pushNum?_eq_some_iff.mpr hcount]

theorem popList_of_not_counts {top : StackValue} (hcount : ∀ n, ¬ top.Counts n) :
    popList op (top :: below) = .error (.invalidPushNum top) := by
  rw [popList, popValue_cons, ok_bind]
  simp only [StackValue.pushNum?_eq_none_iff.mpr hcount]

theorem popList_eq_ok : stack.popList op = .ok (items, below) ↔
    ∃ top : StackValue, top.Counts items.length ∧
      stack = top :: (items.reverse.map StackValue.bytes ++ below) := by
  cases stack with
  | nil => simp [popList]
  | cons top rest =>
    by_cases hcount : ∃ n, top.Counts n
    · obtain ⟨n, hn⟩ := hcount
      rw [popList_of_counts hn, popMany_eq_ok]
      constructor
      · intro h
        obtain ⟨taken, rfl, rfl, rfl⟩ := h
        exact ⟨top, by simpa using hn, by simp⟩
      · intro h
        obtain ⟨_, hlength, hcons⟩ := h
        obtain ⟨rfl, rfl⟩ := List.cons.inj hcons
        exact ⟨items.reverse, by rw [List.length_reverse, hlength.unique hn], rfl, by simp⟩
    · rw [not_exists] at hcount
      rw [popList_of_not_counts hcount]
      simp only [reduceCtorEq, false_iff, not_exists, not_and]
      rintro _ hlength hcons
      rw [(List.cons.inj hcons).1] at hcount
      exact hcount _ hlength

theorem popList_eq_error : stack.popList op = .error e ↔
    (stack = [] ∧ e = .stackUnderflow) ∨
      (∃ top below, stack = top :: below ∧ (∀ n, ¬ top.Counts n) ∧ e = .invalidPushNum top) ∨
      ∃ (top : StackValue) (n : Nat) (taken : List Bytes) (rest : Stack), top.Counts n ∧
        taken.length < n ∧ stack = top :: (taken.map StackValue.bytes ++ rest) ∧
        rest.popBytes op = .error e := by
  cases stack with
  | nil => simp [popList, @eq_comm _ e]
  | cons top below =>
    by_cases hcount : ∃ n, top.Counts n
    · obtain ⟨n, hn⟩ := hcount
      rw [popList_of_counts hn, popMany_eq_error]
      constructor
      · intro h
        obtain ⟨taken, rest, hshort, rfl, hrest⟩ := h
        exact .inr (.inr ⟨top, n, taken, rest, hn, hshort, rfl, hrest⟩)
      · intro h
        obtain ⟨hnil, -⟩ | ⟨_, _, hcons, hnone, -⟩ | h := h
        · cases hnil
        · obtain ⟨rfl, -⟩ := List.cons.inj hcons
          exact absurd hn (hnone n)
        · obtain ⟨_, k, taken, rest, hk, hshort, hcons, hrest⟩ := h
          obtain ⟨rfl, rfl⟩ := List.cons.inj hcons
          obtain rfl := hk.unique hn
          exact ⟨taken, rest, hshort, rfl, hrest⟩
    · rw [not_exists] at hcount
      rw [popList_of_not_counts hcount]
      constructor
      · intro h
        exact .inr (.inl ⟨top, below, rfl, hcount, (Except.error.inj h).symm⟩)
      · intro h
        obtain ⟨hnil, -⟩ | ⟨_, _, hcons, -, rfl⟩ | ⟨_, n, _, _, hn, -, hcons, -⟩ := h
        · cases hnil
        · rw [(List.cons.inj hcons).1]
        · rw [(List.cons.inj hcons).1] at hcount
          exact absurd hn (hcount n)

/-- What popping a counted list comes to on every stack, and in how many turns of its loop.
Stacks and lists are listed from the bottom. -/
theorem popList_exact (op : Opcode) (stack : Stack) :
    (∀ items below, stack.popList op = .ok (items, below) ↔
      ∃ top : StackValue, top.Counts items.length ∧
        stack.bottomFirst = below.bottomFirst ++ items.map .bytes ++ [top]) ∧
    (∀ e, stack.popList op = .error e ↔
      (stack = [] ∧ e = .stackUnderflow) ∨
      (∃ top below, stack = top :: below ∧ (∀ n, ¬ top.Counts n) ∧ e = .invalidPushNum top) ∨
      ∃ (top : StackValue) (n : Nat) (taken : List Bytes) (rest : Stack), top.Counts n ∧
        taken.length < n ∧ stack = top :: (taken.map .bytes ++ rest) ∧
        (rest = [] ∧ e = .stackUnderflow ∨
          ∃ value below, rest = value :: below ∧ value.bytes? = none ∧
            e = .nonDataOperand op value)) ∧
    (∀ top below n, stack = top :: below → top.Counts n → ∃ turns ≤ stack.length,
      ∀ k result, Pops op n below [] k result ↔ k = turns ∧ result = stack.popList op) := by
  refine ⟨?success, ?failure, ?turns⟩
  case success =>
    intro items below
    rw [popList_eq_ok]
    refine exists_congr fun top => and_congr_right fun _ => ?_
    rw [bottomFirst, bottomFirst, ← List.reverse_inj]
    simp [List.map_reverse]
  case failure =>
    intro e
    simp only [popList_eq_error, popBytes_eq_error]
  case turns =>
    rintro top below n rfl hcount
    rw [popList_of_counts hcount]
    exact pops_iff

/-- Two items over an outcome, under a count with a sign and a zero in front. -/
def twoItems : Stack :=
  .ofBottomFirst [.bool true, .bytes [1], .bytes [2], .literal "OP_PUSHNUM_+02"]

/-- The largest count there is, over one item. -/
def largestCount : Stack :=
  .ofBottomFirst [.bytes [1], .literal "OP_PUSHNUM_18446744073709551615"]

/-- The items come in the order in which they were pushed, and a list that would need a stack of
more than `2 ^ 64` items is found to be short in two turns. -/
theorem popList_exact_counted :
    twoItems.popList .checkMultiSig = .ok ([[1], [2]], [.bool true]) ∧
    largestCount.popList .checkMultiSig = .error .stackUnderflow ∧
    ∃ turns ≤ 2, ∀ k result, Pops .checkMultiSig 18446744073709551615 [.bytes [1]] [] k result ↔
      k = turns ∧ result = .error .stackUnderflow := by
  have htwo : (StackValue.literal "OP_PUSHNUM_+02").Counts 2 :=
    StackValue.pushNum?_eq_some_iff.mp rfl
  have hlargest : (StackValue.literal "OP_PUSHNUM_18446744073709551615").Counts
      18446744073709551615 := StackValue.pushNum?_eq_some_iff.mp rfl
  obtain ⟨hitems, -, -⟩ := popList_exact .checkMultiSig twoItems
  obtain ⟨-, hshort, hturns⟩ := popList_exact .checkMultiSig largestCount
  have hfails : largestCount.popList .checkMultiSig = .error .stackUnderflow :=
    (hshort _).mpr (.inr (.inr ⟨_, _, [[1]], [], hlargest, by decide, rfl, .inl ⟨rfl, rfl⟩⟩))
  refine ⟨(hitems _ _).mpr ⟨_, htwo, rfl⟩, hfails, ?_⟩
  rw [← hfails]
  exact hturns _ _ _ rfl hlargest

end Stack
end SpendCheck
