import Mathlib.Data.Nat.Digits.Lemmas
import SpendCheck.Text.Numeral

/-!
# What numerals denote

A numeral may have a plus sign and zeros in front, and any number of either kind of digits.
`Denotes` says which number it stands for, by the place values of its digits, and reading
accepts exactly the numerals that denote a number below the bound.  A positive number has one
plain numeral, without a sign and without zeros in front, and that is how it is written.
-/

namespace SpendCheck.Text

/-- An optional plus sign and then one digit or more, the most significant first, which are the
decimal digits of the number. -/
def Denotes (numeral : List Char) (n : Nat) : Prop :=
  ∃ sign digits, numeral = sign ++ digits ∧ (sign = [] ∨ sign = ['+']) ∧ digits ≠ [] ∧
    (∀ c ∈ digits, c.isDigit = true) ∧
    n = Nat.ofDigits 10 (digits.reverse.map fun c => c.toNat - '0'.toNat)

/-- Without a sign and without zeros in front. -/
def Plain (numeral : List Char) : Prop := numeral.head? ≠ some '+' ∧ numeral.head? ≠ some '0'

theorem not_isDigit_plus : ¬ '+'.isDigit = true := by decide

theorem isDigits_iff {chars : List Char} :
    isDigits chars = true ↔ chars ≠ [] ∧ ∀ c ∈ chars, c.isDigit = true := by
  simp [isDigits]

theorem digitsValue_eq_ofDigits (digits : List Char) :
    digitsValue digits = Nat.ofDigits 10 (digits.reverse.map fun c => c.toNat - '0'.toNat) := by
  induction digits using List.reverseRecOn with
  | nil => rfl
  | append_singleton digits c ih =>
    rw [digitsValue, List.foldl_append, ← digitsValue, ih, List.reverse_concat, List.map_cons,
      Nat.ofDigits_cons, Nat.add_comm]
    rfl

theorem digitsValue_eq_ofDigitChars (digits : List Char) :
    digitsValue digits = Nat.ofDigitChars 10 digits 0 := by
  rw [Nat.ofDigitChars_eq_foldl]
  rfl

/-- Reading accepts the numerals of the numbers below the bound, and no other text. -/
theorem numeral?_eq_some_iff {bound n : Nat} {numeral : List Char} :
    numeral? bound numeral = some n ↔ n < bound ∧ Denotes numeral n := by
  have hread : ∀ digits : List Char,
      (if isDigits digits && digitsValue digits < bound then some (digitsValue digits)
        else none) = some n ↔
      n < bound ∧ digits ≠ [] ∧ (∀ c ∈ digits, c.isDigit = true) ∧ n = digitsValue digits := by
    intro digits
    rw [← and_assoc (a := digits ≠ []), ← isDigits_iff]
    by_cases hvalue : n = digitsValue digits
    · simp [hvalue, and_comm]
    · simp [hvalue, Ne.symm hvalue]
  unfold numeral?
  split
  case h_1 rest =>
    rw [hread, digitsValue_eq_ofDigits]
    constructor
    · intro h
      obtain ⟨hbound, hne, hdigits, hvalue⟩ := h
      exact ⟨hbound, ['+'], rest, rfl, .inr rfl, hne, hdigits, hvalue⟩
    · intro h
      obtain ⟨hbound, sign, digits, hsplit, hsign, hne, hdigits, hvalue⟩ := h
      rcases hsign with rfl | rfl
      · -- A sign is no digit.
        obtain rfl : '+' :: rest = digits := hsplit
        exact absurd (hdigits '+' List.mem_cons_self) not_isDigit_plus
      · obtain rfl : rest = digits := by simpa using hsplit
        exact ⟨hbound, hne, hdigits, hvalue⟩
  case h_2 hplus =>
    rw [hread, digitsValue_eq_ofDigits]
    constructor
    · intro h
      obtain ⟨hbound, hne, hdigits, hvalue⟩ := h
      exact ⟨hbound, [], numeral, rfl, .inl rfl, hne, hdigits, hvalue⟩
    · intro h
      obtain ⟨hbound, sign, digits, hsplit, hsign, hne, hdigits, hvalue⟩ := h
      rcases hsign with rfl | rfl
      · obtain rfl : numeral = digits := hsplit
        exact ⟨hbound, hne, hdigits, hvalue⟩
      · exact absurd hsplit (hplus digits)

/-! ## Written numbers -/

theorem denotes_toDigits (n : Nat) : Denotes (Nat.toDigits 10 n) n := by
  refine ⟨[], Nat.toDigits 10 n, rfl, .inl rfl, Nat.toDigits_ne_nil, ?_, ?_⟩
  · intro c hc
    exact Nat.isDigit_of_mem_toDigits (by omega) (by omega) hc
  · rw [← digitsValue_eq_ofDigits, digitsValue_eq_ofDigitChars, Nat.ofDigitChars_ten_toDigits]

theorem digitChar_digit {c : Char} (hc : c.isDigit = true) :
    c.toNat - '0'.toNat < 10 ∧ Nat.digitChar (c.toNat - '0'.toNat) = c := by
  have hrange : '0'.toNat ≤ c.toNat ∧ c.toNat ≤ '9'.toNat := by
    simpa [Char.isDigit, Char.le_def, UInt32.le_iff_toNat_le] using hc
  have hzero : '0'.toNat = 48 := rfl
  have hnine : '9'.toNat = 57 := rfl
  have hlt : c.toNat - '0'.toNat < 10 := by omega
  refine ⟨hlt, Char.toNat_inj.mp ?_⟩
  rw [Nat.toNat_digitChar_of_lt_ten hlt]
  omega

/-- Digits behind a positive number are digits of the number that they make of it. -/
theorem toDigits_append_digits {digits : List Char} (hdigits : ∀ c ∈ digits, c.isDigit = true)
    {n : Nat} (hn : 0 < n) :
    Nat.toDigits 10 n ++ digits = Nat.toDigits 10 (Nat.ofDigitChars 10 digits n) := by
  induction digits generalizing n with
  | nil => rw [List.append_nil, Nat.ofDigitChars_nil]
  | cons c rest ih =>
    obtain ⟨hlt, hchar⟩ := digitChar_digit (hdigits c List.mem_cons_self)
    have hrest : ∀ c ∈ rest, c.isDigit = true := fun d hd => hdigits d (List.mem_cons_of_mem c hd)
    have hone : Nat.toDigits 10 n ++ [c] =
        Nat.toDigits 10 (10 * n + (c.toNat - '0'.toNat)) := by
      rw [← Nat.toDigits_append_toDigits (by omega) hn hlt, Nat.toDigits_of_lt_base hlt, hchar]
    rw [List.append_cons, hone, ih hrest (by omega), Nat.ofDigitChars_cons]

/-- A positive number is written without zeros in front. -/
theorem head?_toDigits {n : Nat} (hn : 0 < n) : (Nat.toDigits 10 n).head? ≠ some '0' := by
  induction n using Nat.strongRecOn with
  | ind n ih =>
    rw [Nat.toDigits_eq_if (by omega)]
    split
    · simp only [List.head?_cons, ne_eq, Option.some.injEq, Nat.digitChar_eq_zero]
      omega
    · have hne : Nat.toDigits 10 (n / 10) ≠ [] := Nat.toDigits_ne_nil
      rw [List.head?_append_of_ne_nil _ hne]
      exact ih (n / 10) (by omega) (by omega)

theorem plain_toDigits {n : Nat} (hn : 0 < n) : Plain (Nat.toDigits 10 n) := by
  refine ⟨?_, head?_toDigits hn⟩
  intro hplus
  have hmem : '+' ∈ Nat.toDigits 10 n := List.mem_of_head? hplus
  exact not_isDigit_plus (Nat.isDigit_of_mem_toDigits (by omega) (by omega) hmem)

/-- The plain numeral of a positive number is the one that is written for it. -/
theorem Denotes.toDigits_eq_iff {numeral : List Char} {n : Nat} (h : Denotes numeral n)
    (hn : 0 < n) : Nat.toDigits 10 n = numeral ↔ Plain numeral := by
  constructor
  · rintro rfl
    exact plain_toDigits hn
  · intro hplain
    obtain ⟨sign, digits, rfl, hsign, hne, hdigits, hvalue⟩ := h
    rcases hsign with rfl | rfl
    · obtain ⟨c, rest, rfl⟩ := List.exists_cons_of_ne_nil hne
      obtain ⟨hlt, hchar⟩ := digitChar_digit (hdigits c List.mem_cons_self)
      have hfirst : 0 < c.toNat - '0'.toNat := by
        apply Nat.pos_of_ne_zero
        intro hzero
        rw [hzero] at hchar
        exact hplain.2 (congrArg some hchar.symm)
      have hrest : ∀ d ∈ rest, d.isDigit = true :=
        fun d hd => hdigits d (List.mem_cons_of_mem c hd)
      have hn' : n = Nat.ofDigitChars 10 rest (c.toNat - '0'.toNat) := by
        rw [hvalue, ← digitsValue_eq_ofDigits, digitsValue_eq_ofDigitChars, Nat.ofDigitChars_cons]
        simp
      rw [hn', ← toDigits_append_digits hrest hfirst, Nat.toDigits_of_lt_base hlt, hchar]
      rfl
    · exact absurd rfl hplain.1

end SpendCheck.Text
