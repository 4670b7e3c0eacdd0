import Mathlib.Data.Nat.Digits.Lemmas
import Mathlib.Tactic.Positivity
import SpendCheck.Bytes.Basic

/-!
# Byte strings as numbers

The two readings of a byte string, from either end.  Strings of one length stand in the
order of their numbers when they are compared from the most significant byte on.
-/

namespace SpendCheck.Bytes

theorem toNatLE_eq_ofDigits (bytes : Bytes) :
    toNatLE bytes = Nat.ofDigits 256 (bytes.map UInt8.toNat) := by
  induction bytes with
  | nil => rfl
  | cons b rest ih => simp [toNatLE, ih, Nat.ofDigits_cons]

theorem toNatLE_append (low high : Bytes) :
    toNatLE (low ++ high) = toNatLE low + 256 ^ low.length * toNatLE high := by
  simp only [toNatLE_eq_ofDigits, List.map_append, Nat.ofDigits_append, List.length_map]

theorem toNatLE_lt (bytes : Bytes) : toNatLE bytes < 256 ^ bytes.length := by
  have hdigits : ∀ digit ∈ bytes.map UInt8.toNat, digit < 256 := by
    intro digit hdigit
    obtain ⟨b, -, rfl⟩ := List.mem_map.mp hdigit
    exact b.toNat_lt
  have hbound := Nat.ofDigits_lt_base_pow_length (by decide) hdigits
  rwa [List.length_map, ← toNatLE_eq_ofDigits] at hbound

theorem toNatBE_concat (bytes : Bytes) (b : UInt8) :
    toNatBE (bytes ++ [b]) = 256 * toNatBE bytes + b.toNat := by
  rw [toNatBE, List.foldl_append]
  rfl

theorem toNatBE_eq_toNatLE_reverse (bytes : Bytes) : toNatBE bytes = toNatLE bytes.reverse := by
  induction bytes using List.reverseRecOn with
  | nil => rfl
  | append_singleton bytes b ih =>
    rw [toNatBE_concat, List.reverse_concat, toNatLE, ih, Nat.add_comm]

theorem toNatBE_append (high low : Bytes) :
    toNatBE (high ++ low) = 256 ^ low.length * toNatBE high + toNatBE low := by
  rw [toNatBE_eq_toNatLE_reverse, List.reverse_append, toNatLE_append, List.length_reverse,
    ← toNatBE_eq_toNatLE_reverse, ← toNatBE_eq_toNatLE_reverse, Nat.add_comm]

theorem toNatBE_cons (b : UInt8) (rest : Bytes) :
    toNatBE (b :: rest) = 256 ^ rest.length * b.toNat + toNatBE rest := by
  have hsingle : toNatBE [b] = b.toNat := by simp [toNatBE]
  rw [← List.singleton_append, toNatBE_append, hsingle]

theorem toNatBE_lt (bytes : Bytes) : toNatBE bytes < 256 ^ bytes.length := by
  rw [toNatBE_eq_toNatLE_reverse, ← List.length_reverse]
  exact toNatLE_lt bytes.reverse

/-- Leading zeros do not count. -/
theorem toNatBE_dropWhile_zero (bytes : Bytes) :
    toNatBE (bytes.dropWhile (· == 0)) = toNatBE bytes := by
  induction bytes with
  | nil => rfl
  | cons b rest ih =>
    by_cases hzero : b = 0
    · rw [List.dropWhile_cons_of_pos (by simp [hzero]), ih, toNatBE_cons, hzero]
      simp
    · rw [List.dropWhile_cons_of_neg (by simp [hzero])]

/-- How many bytes a number takes without the zeros in front. -/
theorem length_dropWhile_zero_le_iff (bytes : Bytes) (n : Nat) :
    (bytes.dropWhile (· == 0)).length ≤ n ↔ toNatBE bytes < 256 ^ n := by
  rw [← toNatBE_dropWhile_zero]
  constructor
  · intro hlength
    exact (toNatBE_lt _).trans_le (Nat.pow_le_pow_right (by decide) hlength)
  · intro hlt
    cases hdigits : bytes.dropWhile (· == 0) with
    | nil => exact Nat.zero_le n
    | cons b rest =>
      have hfirst : b ≠ 0 := by
        have hhead := List.head?_dropWhile_not (· == (0 : UInt8)) bytes
        rw [hdigits] at hhead
        simpa using hhead
      have hpos : 0 < b.toNat := Nat.pos_of_ne_zero fun hzero => hfirst (UInt8.toNat_inj.mp hzero)
      rw [hdigits, toNatBE_cons] at hlt
      have hplace : 256 ^ rest.length ≤ 256 ^ rest.length * b.toNat :=
        Nat.le_mul_of_pos_right _ hpos
      have hpow : 256 ^ rest.length < 256 ^ n := by omega
      exact (Nat.pow_lt_pow_iff_right (by decide)).mp hpow

/-- The first bytes of a string are what its number comes to without the other ones. -/
theorem toNatBE_take (bytes : Bytes) (count : Nat) :
    toNatBE (bytes.take count) = toNatBE bytes / 256 ^ (bytes.length - count) := by
  have hsplit : toNatBE bytes =
      256 ^ (bytes.length - count) * toNatBE (bytes.take count) + toNatBE (bytes.drop count) := by
    rw [← List.length_drop, ← toNatBE_append, List.take_append_drop]
  have hrest : toNatBE (bytes.drop count) < 256 ^ (bytes.length - count) := by
    rw [← List.length_drop]
    exact toNatBE_lt _
  rw [hsplit, Nat.mul_add_div (by positivity), Nat.div_eq_of_lt hrest, Nat.add_zero]

/-- Where the first bytes differ they decide, since all others together come to less than a
difference of one in them. -/
theorem lt_iff_toNatBE_lt {a b : Bytes} (hlength : a.length = b.length) :
    a < b ↔ toNatBE a < toNatBE b := by
  induction a generalizing b with
  | nil =>
    obtain rfl := List.eq_nil_of_length_eq_zero hlength.symm
    simp
  | cons x as ih =>
    cases b with
    | nil => cases hlength
    | cons y bs =>
      have hrest : as.length = bs.length := Nat.succ.inj hlength
      have ha := toNatBE_lt as
      have hb := toNatBE_lt bs
      rw [List.cons_lt_cons_iff, ih hrest, toNatBE_cons, toNatBE_cons, hrest,
        UInt8.lt_iff_toNat_lt, ← UInt8.toNat_inj]
      rw [hrest] at ha
      generalize 256 ^ bs.length = place at ha hb ⊢
      rcases Nat.lt_trichotomy x.toNat y.toNat with hxy | hxy | hxy
      · have hplace : place * (x.toNat + 1) ≤ place * y.toNat := Nat.mul_le_mul_left place hxy
        rw [Nat.mul_succ] at hplace
        omega
      · rw [hxy]
        omega
      · have hplace : place * (y.toNat + 1) ≤ place * x.toNat := Nat.mul_le_mul_left place hxy
        rw [Nat.mul_succ] at hplace
        omega

end SpendCheck.Bytes
