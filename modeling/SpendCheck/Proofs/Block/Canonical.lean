import Mathlib.Data.Nat.Bitwise
import Mathlib.Order.Bounds.Defs
import SpendCheck.Proofs.Block.Compact

/-!
# The compact form of a target

A number can be written down compactly in several sizes.  The size that is taken is the least
one that leaves the sign clear, so the number is less than half of what that many bytes hold,
and not less than half of what one byte less holds.  With no larger size are finer numbers to
be had, and with a smaller one none that is as large, which makes the number that is written
the greatest below the target.  From sizes that grow with the target it follows that compact
forms stand in the order of their targets.
-/

namespace SpendCheck
namespace Compact

theorem coefficient_lt (bits : UInt32) : coefficient bits < 0x800000 := by
  rw [coefficient, UInt32.toNat_and]
  exact Nat.lt_succ_of_le Nat.and_le_right

/-- Compact forms are read without a sign. -/
theorem two_mul_expand_lt (bits : UInt32) : 2 * expand bits < 256 ^ size bits := by
  have hcoefficient := coefficient_lt bits
  have hpos : 0 < 256 ^ size bits := Nat.pow_pos (by decide)
  have hread : expand bits * 256 ^ 3 ≤ coefficient bits * 256 ^ size bits := by
    rw [expand_eq]
    exact Nat.div_mul_le_self _ _
  have hbound : coefficient bits * 256 ^ size bits < 0x800000 * 256 ^ size bits :=
    Nat.mul_lt_mul_of_pos_right hcoefficient hpos
  omega

theorem unit_dvd_expand (bits : UInt32) : unit bits ∣ expand bits := by
  unfold unit expand
  split <;> rename_i hsize
  · rw [Nat.sub_eq_zero_of_le (Nat.le_of_lt hsize)]
    exact Nat.one_dvd _
  · exact Nat.dvd_mul_left _ _

theorem unit_dvd_unit {fine coarse : UInt32} (h : size fine ≤ size coarse) :
    unit fine ∣ unit coarse :=
  Nat.pow_dvd_pow 256 (Nat.sub_le_sub_right h 3)

/-- The sign is clear just where the target takes less than half of what its bytes hold. -/
theorem mantissa_significant_lt_iff (target : Hash256) :
    mantissa (significant target) < 0x800000 ↔
      2 * value target < 256 ^ (significant target).length := by
  have hpos : 0 < 256 ^ (significant target).length := Nat.pow_pos (by decide)
  rw [mantissa_eq, toNatBE_significant, Nat.div_lt_iff_lt_mul hpos]
  omega

theorem size_ofTarget (target : Hash256) : size (ofTarget target) =
    if mantissa (significant target) < 0x800000 then (significant target).length
    else (significant target).length + 1 := by
  have hlength := length_significant_le target
  have hbound := mantissa_lt (significant target)
  rw [ofTarget]
  split <;> exact size_ofFields (by omega) (by omega)

/-- The size that is written is the least that leaves the sign clear. -/
theorem size_ofTarget_le_iff (target : Hash256) (n : Nat) :
    size (ofTarget target) ≤ n ↔ 2 * value target < 256 ^ n := by
  have hlength : (significant target).length ≤ n ↔ value target < 256 ^ n :=
    Bytes.length_dropWhile_zero_le_iff target.toList n
  have hvalue : value target < 256 ^ (significant target).length := by
    rw [← toNatBE_significant]
    exact Bytes.toNatBE_lt _
  rw [size_ofTarget]
  split <;> rename_i hsign <;> rw [mantissa_significant_lt_iff] at hsign
  · constructor
    · intro hsize
      exact hsign.trans_le (Nat.pow_le_pow_right (by decide) hsize)
    · intro hhalf
      exact hlength.mpr (by omega)
  · constructor
    · intro hsize
      have hpow : 256 ^ ((significant target).length + 1) ≤ 256 ^ n :=
        Nat.pow_le_pow_right (by decide) hsize
      rw [Nat.pow_succ] at hpow
      omega
    · intro hhalf
      have hpow : 256 ^ (significant target).length < 256 ^ n := by omega
      exact (Nat.pow_lt_pow_iff_right (by decide)).mp hpow

theorem size_ofTarget_mono {target larger : Hash256} (h : value target ≤ value larger) :
    size (ofTarget target) ≤ size (ofTarget larger) := by
  have hlarger := (size_ofTarget_le_iff larger _).mp le_rfl
  exact (size_ofTarget_le_iff target _).mpr (by omega)

theorem toNat_ofTarget (target : Hash256) : (ofTarget target).toNat =
    0x1000000 * size (ofTarget target) + coefficient (ofTarget target) := by
  obtain ⟨n, m, hn, hm, -, hbits⟩ := exists_fields target
  have hbyte : n < 256 := by omega
  rw [hbits, toNat_ofFields hbyte hm, size_ofFields hbyte hm, coefficient_ofFields hbyte hm]

theorem sign_ofTarget (target : Hash256) : ofTarget target &&& 0x800000 = 0 := by
  have hcoefficient := coefficient_lt (ofTarget target)
  have hclear : (ofTarget target).toNat.testBit 23 = false := by
    rw [Nat.testBit_eq_decide_div_mod_eq, toNat_ofTarget, decide_eq_false_iff_not]
    omega
  apply UInt32.toNat_inj.mp
  rw [UInt32.toNat_and]
  show (ofTarget target).toNat &&& 2 ^ 23 = 0
  rw [Nat.and_two_pow, hclear]
  rfl

/-- The numbers that have a compact form. -/
def Representable (n : Nat) : Prop := ∃ bits, expand bits = n

/-- No multiple of the unit lies between the target and what is read back of it. -/
theorem le_expand_ofTarget {target : Hash256} {n : Nat} (hdvd : unit (ofTarget target) ∣ n)
    (hle : n ≤ value target) : n ≤ expand (ofTarget target) := by
  obtain ⟨count, rfl⟩ := hdvd
  rw [expand_ofTarget, Nat.mul_comm]
  apply Nat.mul_le_mul_right
  rw [Nat.le_div_iff_mul_le (unit_pos _), Nat.mul_comm]
  exact hle

/-- A smaller size than the one that is written has only numbers that are less than half of
what one byte less holds, and that half is a multiple of the unit. -/
theorem expand_le_of_size_lt {target : Hash256} {bits : UInt32}
    (hsize : size bits < size (ofTarget target)) (hle : expand bits ≤ value target) :
    expand bits ≤ expand (ofTarget target) := by
  obtain ⟨n, hn⟩ := Nat.exists_eq_succ_of_ne_zero (Nat.ne_zero_of_lt hsize)
  have hhalf : 256 ^ n ≤ 2 * value target := by
    refine Nat.le_of_not_lt fun hlt => ?_
    have hsmaller := (size_ofTarget_le_iff target n).mpr hlt
    omega
  have hexpand : 2 * expand bits < 256 ^ n :=
    (two_mul_expand_lt bits).trans_le (Nat.pow_le_pow_right (by decide) (by omega))
  by_cases hbytes : n < 2
  · -- With a unit of one nothing is lost.
    have hunit : unit (ofTarget target) = 1 := by
      rw [unit, hn, Nat.sub_eq_zero_of_le (by omega), Nat.pow_zero]
    exact le_expand_ofTarget (hunit ▸ Nat.one_dvd _) hle
  · have hplace : 256 ^ n = 2 * (unit (ofTarget target) * 0x8000) := by
      rw [unit, hn, ← pow_sub_mul_pow 256 (Nat.le_of_not_lt hbytes)]
      show 256 ^ (n - 2) * 0x10000 = 2 * (256 ^ (n + 1 - 3) * 0x8000)
      rw [show n + 1 - 3 = n - 2 by omega]
      omega
    have hbelow := le_expand_ofTarget (Nat.dvd_mul_right _ 0x8000)
      (show unit (ofTarget target) * 0x8000 ≤ value target by omega)
    omega

theorem isGreatest_expand_ofTarget (target : Hash256) :
    IsGreatest {n | Representable n ∧ n ≤ value target} (expand (ofTarget target)) := by
  refine ⟨⟨⟨_, rfl⟩, expand_ofTarget_le target⟩, ?_⟩
  rintro _ ⟨⟨bits, rfl⟩, hle⟩
  rcases Nat.lt_or_ge (size bits) (size (ofTarget target)) with hsize | hsize
  · exact expand_le_of_size_lt hsize hle
  · exact le_expand_ofTarget ((unit_dvd_unit hsize).trans (unit_dvd_expand bits)) hle

theorem ofTarget_eq_zero_iff (target : Hash256) : ofTarget target = 0 ↔ value target = 0 := by
  constructor
  · intro hbits
    have hsize : size (ofTarget target) ≤ 0 := by rw [hbits]; decide
    have hhalf := (size_ofTarget_le_iff target 0).mp hsize
    omega
  · intro hvalue
    have hsize : size (ofTarget target) ≤ 0 :=
      (size_ofTarget_le_iff target 0).mpr (by rw [hvalue]; decide)
    have hcoefficient : coefficient (ofTarget target) = 0 := by
      rw [coefficient_ofTarget, hvalue, Nat.zero_mul, Nat.zero_div]
    apply UInt32.toNat_inj.mp
    rw [toNat_ofTarget, hcoefficient, Nat.le_zero.mp hsize]
    rfl

theorem ofTarget_mono {target larger : Hash256} (h : value target ≤ value larger) :
    ofTarget target ≤ ofTarget larger := by
  rw [UInt32.le_iff_toNat_le, toNat_ofTarget, toNat_ofTarget]
  have hbound := coefficient_lt (ofTarget target)
  rcases Nat.lt_or_eq_of_le (size_ofTarget_mono h) with hsize | hsize
  · omega
  · have hcoefficient : coefficient (ofTarget target) ≤ coefficient (ofTarget larger) := by
      rw [coefficient_ofTarget, coefficient_ofTarget, hsize]
      exact Nat.div_le_div_right (Nat.mul_le_mul_right _ h)
    omega

/-- The compact form of a target has a clear sign and stands for the greatest number that is
representable and not above the target, which is the target where that is representable.  It is
zero for a zero target only, and grows with the target. -/
theorem ofTarget_canonical (target : Hash256) :
    ofTarget target &&& 0x800000 = 0 ∧
      IsGreatest {n | Representable n ∧ n ≤ value target} (expand (ofTarget target)) ∧
      (Representable (value target) → expand (ofTarget target) = value target) ∧
      (ofTarget target = 0 ↔ value target = 0) ∧
      ∀ larger : Hash256, value target ≤ value larger → ofTarget target ≤ ofTarget larger := by
  have hgreatest := isGreatest_expand_ofTarget target
  refine ⟨sign_ofTarget target, hgreatest, ?exact, ofTarget_eq_zero_iff target, ?mono⟩
  case exact =>
    intro hrepresentable
    exact (expand_ofTarget_le target).antisymm (hgreatest.2 ⟨hrepresentable, le_rfl⟩)
  case mono =>
    intro larger hle
    exact ofTarget_mono hle

/-- The least target of which 32 bytes leave no room for a sign. -/
def signedTarget : Hash256 := (Vector.replicate 32 0).setIfInBounds 0 0x80

/-- Written in 33 bytes the target is exact, and stands before those with more of its bytes
set. -/
theorem ofTarget_canonical_signedTarget :
    Representable (value signedTarget) ∧ expand (ofTarget signedTarget) = value signedTarget ∧
      value signedTarget ≤ value (.replicate 32 0xff) ∧
      ofTarget signedTarget ≤ ofTarget (.replicate 32 0xff) := by
  have hrepresentable : Representable (value signedTarget) := ⟨0x21008000, by decide⟩
  have hle : value signedTarget ≤ value (.replicate 32 0xff) := by decide
  obtain ⟨-, -, hexact, -, hmono⟩ := ofTarget_canonical signedTarget
  exact ⟨hrepresentable, hexact hrepresentable, hle, hmono _ hle⟩

end Compact
end SpendCheck
