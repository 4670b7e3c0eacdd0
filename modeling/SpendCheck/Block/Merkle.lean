import SpendCheck.Hash.Basic

/-!
# Merkle roots

The nodes of a level are hashed in pairs until one is left.  A last node without a
partner is paired with itself, on every level where there is one.
-/

namespace SpendCheck.Merkle

def node (left right : Hash256) : Hash256 := doubleSha256 (left.toList ++ right.toList)

def pairUp : List Hash256 → List Hash256
  | [] => []
  | [last] => [node last last]
  | left :: right :: rest => node left right :: pairUp rest

theorem length_pairUp (level : List Hash256) : (pairUp level).length = (level.length + 1) / 2 := by
  fun_induction pairUp level with
  | case1 => rfl
  | case2 => simp
  | case3 _ _ _ ih => simp only [List.length_cons, ih]; omega

/-- The root of the tree over some leaves; there is none over no leaves. -/
def root? (leaves : List Hash256) : Option Hash256 :=
  match leaves with
  | [] => none
  | [top] => some top
  | left :: right :: rest => root? (pairUp (left :: right :: rest))
termination_by leaves.length
decreasing_by
  rw [length_pairUp]
  simp only [List.length_cons]
  omega

end SpendCheck.Merkle
