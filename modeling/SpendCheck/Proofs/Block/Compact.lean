import SpendCheck.Block.Compact
import SpendCheck.Proofs.Bytes.Number

/-!
# Reading compact targets

What a compact target stands for: its coefficient with the last byte moved to the place that
its size tells.  A target that is written down so and read back has lost what lies below
that place, and nothing else.
-/

namespace SpendCheck.Compact

/-- How many bytes the target takes. -/
def size (bits : UInt32) : Nat := (bits >>> 24).toNat

/-- The first three bytes of the target, without the sign. -/
def coefficient (bits : UInt32) : Nat := (bits &&& 0x7fffff).toNat

/-- The target that a compact form stands for. -/
def expand (bits : UInt32) : Nat :=
  if size bits < 3 then coefficient bits >>> (8 * (3 - size bits))
  else coefficient bits * 256 ^ (size bits - 3)

/-- What the last byte of the coefficient counts in. -/
def unit (bits : UInt32) : Nat := 256 ^ (size bits - 3)

/-- The same for all sizes: the coefficient is moved up as many bytes as there are, and three
down. -/
theorem expand_eq (bits : UInt32) :
    expand bits = coefficient bits * 256 ^ size bits / 256 ^ 3 := by
  unfold expand
  split <;> rename_i hsize
  · rw [Nat.shiftRight_eq_div_pow, Nat.pow_mul, ← pow_sub_mul_pow 256 (Nat.le_of_lt hsize),
      Nat.mul_div_mul_right _ _ (Nat.pow_pos (by decide))]
  · rw [← pow_sub_mul_pow 256 (Nat.le_of_not_lt hsize), ← Nat.mul_assoc,
      Nat.mul_div_cancel _ (by decide)]

section Fields

variable {n m : Nat} (hn : n < 256) (hm : m < 0x800000)

include hn hm

theorem toNat_ofFields : (UInt32.ofNat (0x1000000 * n + m)).toNat = 0x1000000 * n + m :=
  UInt32.toNat_ofNat_of_lt' (by rw [UInt32.size]; omega)

theorem size_ofFields : size (UInt32.ofNat (0x1000000 * n + m)) = n := by
  rw [size, UInt32.toNat_shiftRight, toNat_ofFields hn hm, Nat.shiftRight_eq_div_pow]
  show (0x1000000 * n + m) / 0x1000000 = n
  omega

theorem coefficient_ofFields : coefficient (UInt32.ofNat (0x1000000 * n + m)) = m := by
  rw [coefficient, UInt32.toNat_and, toNat_ofFields hn hm]
  show (0x1000000 * n + m) &&& (2 ^ 23 - 1) = m
  rw [Nat.and_two_pow_sub_one_eq_mod]
  omega

end Fields

/-- The value of a target. -/
def value (target : Hash256) : Nat := Bytes.toNatBE target.toList

theorem toNatBE_significant (target : Hash256) :
    Bytes.toNatBE (significant target) = value target :=
  Bytes.toNatBE_dropWhile_zero target.toList

theorem length_significant_le (target : Hash256) : (significant target).length ≤ 32 := by
  rw [← target.length_toList]
  exact (List.dropWhile_sublist _).length_le

theorem mantissa_eq (bytes : Bytes) :
    mantissa bytes = Bytes.toNatBE bytes * 256 ^ 3 / 256 ^ bytes.length := by
  have hpadded : Bytes.toNatBE (bytes ++ [0, 0, 0]) = Bytes.toNatBE bytes * 256 ^ 3 := by
    have hzeros : Bytes.toNatBE [0, 0, 0] = 0 := rfl
    rw [Bytes.toNatBE_append, hzeros, Nat.add_zero, Nat.mul_comm]
    rfl
  have hlength : (bytes ++ [0, 0, 0]).length - 3 = bytes.length := by simp
  rw [mantissa, Bytes.toNatBE_take, hpadded, hlength]

theorem mantissa_lt (bytes : Bytes) : mantissa bytes < 0x1000000 := by
  have hlength : ((bytes ++ [0, 0, 0]).take 3).length = 3 := by simp
  have hbound := Bytes.toNatBE_lt ((bytes ++ [0, 0, 0]).take 3)
  rwa [hlength] at hbound

/-- The size that is written, and the coefficient that belongs to it.  A size of one byte more
leaves room for the sign. -/
theorem exists_fields (target : Hash256) : ∃ n m : Nat, n ≤ 33 ∧ m < 0x800000 ∧
    m = value target * 256 ^ 3 / 256 ^ n ∧
    ofTarget target = UInt32.ofNat (0x1000000 * n + m) := by
  have hlength := length_significant_le target
  have hmantissa := mantissa_eq (significant target)
  have hbound := mantissa_lt (significant target)
  rw [toNatBE_significant] at hmantissa
  by_cases hsign : mantissa (significant target) < 0x800000
  · exact ⟨_, _, Nat.le_succ_of_le hlength, hsign, hmantissa, by simp [ofTarget, hsign]⟩
  · refine ⟨(significant target).length + 1, mantissa (significant target) / 256,
      Nat.succ_le_succ hlength, by omega, ?_, by simp [ofTarget, hsign]⟩
    rw [hmantissa, Nat.div_div_eq_div_mul, ← Nat.pow_succ]

theorem coefficient_ofTarget (target : Hash256) : coefficient (ofTarget target) =
    value target * 256 ^ 3 / 256 ^ size (ofTarget target) := by
  obtain ⟨n, m, hn, hm, hvalue, hbits⟩ := exists_fields target
  have hbyte : n < 256 := by omega
  rw [hbits, coefficient_ofFields hbyte hm, size_ofFields hbyte hm, hvalue]

/-- What is read back is the target without what lies below the unit. -/
theorem expand_ofTarget (target : Hash256) : expand (ofTarget target) =
    value target / unit (ofTarget target) * unit (ofTarget target) := by
  rw [expand_eq, coefficient_ofTarget, unit]
  generalize size (ofTarget target) = n
  by_cases hn : n < 3
  · -- A target of less than three bytes is written with zeros behind it and is kept whole.
    have hzeros : 256 ^ (3 - n) * 256 ^ n = 256 ^ 3 := pow_sub_mul_pow 256 (Nat.le_of_lt hn)
    have hpos : 0 < 256 ^ n := Nat.pow_pos (by decide)
    rw [Nat.sub_eq_zero_of_le (Nat.le_of_lt hn), ← hzeros, ← Nat.mul_assoc,
      Nat.mul_div_cancel _ hpos, Nat.mul_assoc, hzeros, Nat.mul_div_cancel _ (by decide)]
    simp
  · rw [← pow_sub_mul_pow 256 (Nat.le_of_not_lt hn), Nat.mul_div_mul_right _ _ (by decide),
      ← Nat.mul_assoc, Nat.mul_div_cancel _ (by decide)]

theorem unit_pos (bits : UInt32) : 0 < unit bits := Nat.pow_pos (by decide)

theorem expand_ofTarget_le (target : Hash256) : expand (ofTarget target) ≤ value target := by
  rw [expand_ofTarget]
  exact Nat.div_mul_le_self _ _

theorem lt_expand_ofTarget_add_unit (target : Hash256) :
    value target < expand (ofTarget target) + unit (ofTarget target) := by
  rw [expand_ofTarget]
  exact Nat.lt_div_mul_add (unit_pos _)

theorem expand_ofTarget_eq_iff (target : Hash256) :
    expand (ofTarget target) = value target ↔ unit (ofTarget target) ∣ value target := by
  rw [expand_ofTarget]
  exact ⟨fun h => h ▸ Nat.dvd_mul_left _ _, Nat.div_mul_cancel⟩

end SpendCheck.Compact
