import Mathlib.Algebra.Group.Nat.Even
import Mathlib.Algebra.Ring.Parity
import Mathlib.Data.List.DropRight
import Mathlib.Data.List.TakeDrop
import SpendCheck.Block.Merkle

/-!
# The levels of a merkle tree

How the pairing of a level acts on parts of it.  A part that starts and ends between two pairs
is paired on its own, so cutting a level at an even place cuts the next level at half of that
place.  Main statement: a level whose last part of `2 ^ j` nodes has no partner has the same
root with that part repeated, since `j` levels further up the part is one node and is paired
with itself.
-/

namespace SpendCheck.Merkle

variable {leaves left right : List Hash256}

/-- As long as there are two nodes or more, the root is that of the next level. -/
theorem root?_pairUp (h : 1 < leaves.length) : root? (pairUp leaves) = root? leaves := by
  cases leaves with
  | nil => cases h
  | cons left leaves =>
    cases leaves with
    | nil => simp at h
    | cons right rest => rw [root?.eq_3]

theorem pairUp_append (h : Even left.length) :
    pairUp (left ++ right) = pairUp left ++ pairUp right := by
  fun_induction pairUp left with
  | case1 => rfl
  | case2 => simp at h
  | case3 first second rest ih =>
    have hrest : Even rest.length := by
      rwa [List.length_cons, List.length_cons, Nat.even_add_one, Nat.even_add_one, not_not] at h
    rw [List.cons_append, List.cons_append, pairUp, ih hrest, List.cons_append]

theorem pairUp_take (level : List Hash256) (n : Nat) :
    pairUp (level.take (2 * n)) = (pairUp level).take n := by
  fun_induction pairUp level generalizing n with
  | case1 => simp [pairUp]
  | case2 last => cases n <;> simp [pairUp, Nat.mul_succ]
  | case3 first second rest ih =>
    cases n with
    | zero => rfl
    | succ n => rw [Nat.mul_succ, List.take_succ_cons, List.take_succ_cons, pairUp, ih,
        List.take_succ_cons]

theorem pairUp_drop (level : List Hash256) (n : Nat) :
    pairUp (level.drop (2 * n)) = (pairUp level).drop n := by
  fun_induction pairUp level generalizing n with
  | case1 => simp [pairUp]
  | case2 last => cases n <;> simp [pairUp, Nat.mul_succ]
  | case3 first second rest ih =>
    cases n with
    | zero => simp [pairUp]
    | succ n => rw [Nat.mul_succ, List.drop_succ_cons, List.drop_succ_cons, ih,
        List.drop_succ_cons]

theorem pairUp_rtake {level : List Hash256} (h : Even level.length) (n : Nat) :
    pairUp (level.rtake (2 * n)) = (pairUp level).rtake n := by
  obtain ⟨half, hhalf⟩ := h
  have hnext : (pairUp level).length = half := by rw [length_pairUp]; omega
  have hplace : level.length - 2 * n = 2 * (half - n) := by omega
  rw [List.rtake, List.rtake, hnext, hplace, pairUp_drop]

/-- One level up a repeated part is half as long. -/
theorem pairUp_append_rtake (h : Even leaves.length) (n : Nat) :
    pairUp (leaves ++ leaves.rtake (2 * n)) = pairUp leaves ++ (pairUp leaves).rtake n := by
  rw [pairUp_append h, pairUp_rtake h]

/-- A last node without a partner is its own partner. -/
theorem root?_append_getLast (hodd : Odd leaves.length) (hmany : 1 < leaves.length)
    (hne : leaves ≠ []) : root? (leaves ++ [leaves.getLast hne]) = root? leaves := by
  have hfront : Even leaves.dropLast.length := by
    rw [List.length_dropLast]
    exact Nat.Odd.sub_odd hodd odd_one
  rw [← root?_pairUp hmany, ← root?_pairUp (by simp; omega)]
  generalize hlast : leaves.getLast hne = last
  have hsplit : leaves = leaves.dropLast ++ [last] := by
    rw [← hlast, List.dropLast_append_getLast]
  rw [hsplit, List.append_assoc, pairUp_append hfront, pairUp_append hfront]
  rfl

/-- Where the last `2 ^ j` leaves are what is left over when all are taken `2 ^ (j + 1)` at a
time, and not all there are, repeating them leaves the root as it is.  A single last leaf is the
case of an odd number of leaves. -/
theorem root_of_repeated_tail (leaves : List Hash256) :
    (∀ j q, leaves.length = 2 ^ j * q → Odd q → 1 < q →
      root? (leaves ++ leaves.rtake (2 ^ j)) = root? leaves) ∧
    (Odd leaves.length → 1 < leaves.length → ∀ hne : leaves ≠ [],
      root? (leaves ++ [leaves.getLast hne]) = root? leaves) := by
  refine ⟨?tail, root?_append_getLast⟩
  intro j q hlength hodd hmany
  -- On `j` levels the repeated part is paired within itself, and on the next with itself.
  induction j generalizing leaves with
  | zero =>
    rw [Nat.pow_zero, Nat.one_mul] at hlength
    have hne : leaves ≠ [] := List.ne_nil_of_length_pos (by omega)
    rw [Nat.pow_zero, List.rtake, List.drop_length_sub_one hne]
    exact root?_append_getLast (hlength ▸ hodd) (hlength ▸ hmany) hne
  | succ j ih =>
    have hhalf : leaves.length = 2 ^ j * q + 2 ^ j * q := by
      rw [hlength, Nat.pow_succ', Nat.mul_assoc, Nat.two_mul]
    have hnext : (pairUp leaves).length = 2 ^ j * q := by rw [length_pairUp]; omega
    have htwo : 1 < leaves.length := by
      have hleaves := Nat.le_mul_of_pos_left q (Nat.two_pow_pos j)
      omega
    have hmore : 1 < (leaves ++ leaves.rtake (2 ^ (j + 1))).length := by
      rw [List.length_append]
      omega
    rw [← root?_pairUp hmore, ← root?_pairUp htwo, Nat.pow_succ', pairUp_append_rtake ⟨_, hhalf⟩]
    exact ih (pairUp leaves) hnext

/-- Leaves that are told apart by their bytes. -/
def labelled (labels : List UInt8) : List Hash256 := labels.map (Vector.replicate 32)

theorem root_of_repeated_tail_labelled :
    root? (labelled [1, 2, 3, 4, 5, 6, 5, 6]) = root? (labelled [1, 2, 3, 4, 5, 6]) ∧
      root? (labelled [1, 2, 3, 3]) = root? (labelled [1, 2, 3]) :=
  ⟨(root_of_repeated_tail (labelled [1, 2, 3, 4, 5, 6])).1 1 3 rfl (by decide) (by decide),
    (root_of_repeated_tail (labelled [1, 2, 3])).2 (by decide) (by decide) (by decide)⟩

end SpendCheck.Merkle
