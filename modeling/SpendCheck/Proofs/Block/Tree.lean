import Mathlib.Order.Bounds.Defs
import SpendCheck.Proofs.Block.Levels

/-!
# The merkle tree from its root

The root of a tree can also be worked out from above: the leaves are cut where the first half
of the tree is full, and where they all go into the first half it is the second half too.  A
tree over a level paired up has the root of the tree, one higher, over the level itself, and so
the root that is reached level by level is that of the least height with room for all leaves.
-/

namespace SpendCheck.Merkle

/-- The root of a tree of some height, from the first `2 ^ height` of its leaves and the rest.
There is none over no leaves, nor over more than the height has room for. -/
def tree? : (height : Nat) → (leaves : List Hash256) → Option Hash256
  | 0, [leaf] => some leaf
  | 0, _ => none
  | height + 1, leaves =>
    if 2 ^ height < leaves.length then do
      let left ← tree? height (leaves.take (2 ^ height))
      let right ← tree? height (leaves.drop (2 ^ height))
      return doubleSha256 (left.toList ++ right.toList)
    else do
      let both ← tree? height leaves
      return doubleSha256 (both.toList ++ both.toList)

/-- A level paired up fits where the level itself takes one more height. -/
theorem length_pairUp_le_iff (leaves : List Hash256) (height : Nat) :
    (pairUp leaves).length ≤ 2 ^ height ↔ leaves.length ≤ 2 ^ (height + 1) := by
  rw [length_pairUp, Nat.pow_succ]
  omega

/-- A tree over a level paired up has the root of the tree, one higher, over the level itself. -/
theorem tree?_pairUp (height : Nat) (leaves : List Hash256) :
    tree? height (pairUp leaves) = tree? (height + 1) leaves := by
  induction height generalizing leaves with
  | zero =>
    match leaves with
    | [] => rfl
    | [_] => rfl
    | [_, _] => rfl
    | [_, _, _] => rfl
    | _ :: _ :: _ :: _ :: _ => rfl
  | succ height ih =>
    have hsplit : 2 ^ height < (pairUp leaves).length ↔ 2 ^ (height + 1) < leaves.length := by
      rw [← not_le, ← not_le, length_pairUp_le_iff]
    rw [tree?, tree?, ← pairUp_take, ← pairUp_drop, ← Nat.pow_succ', ih, ih, ih]
    simp only [hsplit]

/-- By induction on the height, one level after the other. -/
theorem tree?_eq_none_iff (height : Nat) (leaves : List Hash256) :
    tree? height leaves = none ↔ leaves = [] ∨ 2 ^ height < leaves.length := by
  induction height generalizing leaves with
  | zero =>
    match leaves with
    | [] => simp [tree?]
    | [_] => simp [tree?]
    | _ :: _ :: _ => simp [tree?]
  | succ height ih =>
    have hempty : pairUp leaves = [] ↔ leaves = [] := by
      rw [← List.length_eq_zero_iff, ← List.length_eq_zero_iff, length_pairUp]
      omega
    rw [← tree?_pairUp, ih, hempty, ← not_le, ← not_le, length_pairUp_le_iff]

theorem isLeast_height_pairUp {leaves : List Hash256} {height : Nat} (hmany : 1 < leaves.length)
    (h : IsLeast {k | (pairUp leaves).length ≤ 2 ^ k} height) :
    IsLeast {k | leaves.length ≤ 2 ^ k} (height + 1) := by
  obtain ⟨hroom, hleast⟩ := h
  refine ⟨(length_pairUp_le_iff leaves height).mp hroom, ?_⟩
  intro k hk
  cases k with
  | zero => exact absurd hk (Nat.not_le_of_lt hmany)
  | succ k => exact Nat.succ_le_succ (hleast ((length_pairUp_le_iff leaves k).mpr hk))

theorem exists_height_root? (leaves : List Hash256) :
    ∃ height, IsLeast {k | leaves.length ≤ 2 ^ k} height ∧ root? leaves = tree? height leaves := by
  fun_induction root? leaves with
  | case1 => exact ⟨0, ⟨by simp, fun _ _ => Nat.zero_le _⟩, rfl⟩
  | case2 => exact ⟨0, ⟨by simp, fun _ _ => Nat.zero_le _⟩, rfl⟩
  | case3 left right rest ih =>
    obtain ⟨height, hleast, hroot⟩ := ih
    have hmany : 1 < (left :: right :: rest).length := by simp
    refine ⟨height + 1, isLeast_height_pairUp hmany hleast, ?_⟩
    rw [hroot, tree?_pairUp]

/-- There is a root over all leaves but none, and it is that of the tree of the least height
that has room for them. -/
theorem root_eq_tree (leaves : List Hash256) :
    (root? leaves = none ↔ leaves = []) ∧ ∃ height,
      IsLeast {k | leaves.length ≤ 2 ^ k} height ∧ root? leaves = tree? height leaves := by
  obtain ⟨height, hleast, hroot⟩ := exists_height_root? leaves
  have hroom : ¬ 2 ^ height < leaves.length := Nat.not_lt_of_le hleast.1
  refine ⟨?_, height, hleast, hroot⟩
  rw [hroot, tree?_eq_none_iff, or_iff_left hroom]

example (a b c : Hash256) : tree? 2 [a, b, c] = some (doubleSha256
    ((doubleSha256 (a.toList ++ b.toList)).toList ++
      (doubleSha256 (c.toList ++ c.toList)).toList)) := rfl

end SpendCheck.Merkle
