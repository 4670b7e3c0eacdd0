import SpendCheck.Proofs.Block.Levels

/-!
# What a merkle root binds

Two lists of the same length go through the same levels, with the same number of pairs on
each.  If they differ and come to one root, they still differ on some level and no more on the
next, so that two pairs that differ are hashed to one node there, in the same place.
-/

namespace SpendCheck.Merkle

/-- The pairs of nodes that are hashed to the next level. -/
def pairs : List Hash256 → List (Hash256 × Hash256)
  | [] => []
  | [last] => [(last, last)]
  | left :: right :: rest => (left, right) :: pairs rest

/-- The bytes that are hashed for a pair. -/
def joined (pair : Hash256 × Hash256) : Bytes := pair.1.toList ++ pair.2.toList

@[simp] theorem length_joined (pair : Hash256 × Hash256) : (joined pair).length = 64 := by
  simp [joined]

theorem joined_injective : Function.Injective joined := by
  rintro ⟨left, right⟩ ⟨left', right'⟩ h
  obtain ⟨hleft, hright⟩ := List.append_inj h (by simp)
  exact Prod.ext (Vector.toList_inj.mp hleft) (Vector.toList_inj.mp hright)

theorem pairUp_eq_map (level : List Hash256) :
    pairUp level = (pairs level).map fun pair => doubleSha256 (joined pair) := by
  fun_induction pairUp level with
  | case1 => rfl
  | case2 => rfl
  | case3 left right rest ih => rw [ih, pairs, List.map_cons, joined, node]

theorem length_pairs (level : List Hash256) : (pairs level).length = (level.length + 1) / 2 := by
  rw [← length_pairUp, pairUp_eq_map, List.length_map]

/-- The pairs tell the level if its length is known.  One node alone and the same node twice
have the same pairs. -/
theorem pairs_inj {level level' : List Hash256} (hlength : level.length = level'.length)
    (h : pairs level = pairs level') : level = level' := by
  fun_induction pairs level generalizing level' with
  | case1 => exact (List.eq_nil_of_length_eq_zero hlength.symm).symm
  | case2 last =>
    match level' with
    | [last'] =>
      rw [pairs, List.cons.injEq, Prod.mk.injEq] at h
      rw [h.1.1]
  | case3 left right rest ih =>
    match level' with
    | left' :: right' :: rest' =>
      rw [pairs, List.cons.injEq, Prod.mk.injEq] at h
      obtain ⟨⟨hleft, hright⟩, hpairs⟩ := h
      rw [hleft, hright, ih (by simpa using hlength) hpairs]

/-- All pairs that are hashed on the way to the root, level by level from the leaves up.  The
hashes of the pairs of one level are the nodes of the next. -/
def hashed (leaves : List Hash256) : List (List (Hash256 × Hash256)) :=
  match leaves with
  | [] => []
  | [_] => []
  | left :: right :: rest =>
    pairs (left :: right :: rest) ::
      hashed ((pairs (left :: right :: rest)).map fun pair => doubleSha256 (joined pair))
termination_by leaves.length
decreasing_by
  rw [List.length_map, length_pairs]
  simp only [List.length_cons]
  omega

variable {leaves leaves' : List Hash256}

theorem hashed_eq_cons (h : 1 < leaves.length) :
    hashed leaves = pairs leaves :: hashed (pairUp leaves) := by
  match leaves with
  | left :: right :: rest => rw [hashed, ← pairUp_eq_map]

/-- On the way from the leaves to the root the pair is hashed at this level and position. -/
def Hashes (leaves : List Hash256) (level position : Nat) (pair : Hash256 × Hash256) : Prop :=
  ∃ row, (hashed leaves)[level]? = some row ∧ row[position]? = some pair

/-- Two pairs in the same place on the ways from two lists of leaves that collide. -/
def Collide (leaves leaves' : List Hash256) : Prop :=
  ∃ level position pair pair', Hashes leaves level position pair ∧
    Hashes leaves' level position pair' ∧ joined pair ≠ joined pair' ∧
    doubleSha256 (joined pair) = doubleSha256 (joined pair')

theorem hashes_zero (h : 1 < leaves.length) {position : Nat} {pair : Hash256 × Hash256}
    (hpair : (pairs leaves)[position]? = some pair) : Hashes leaves 0 position pair :=
  ⟨pairs leaves, by rw [hashed_eq_cons h, List.getElem?_cons_zero], hpair⟩

theorem hashes_succ (h : 1 < leaves.length) {level position : Nat} {pair : Hash256 × Hash256}
    (hpair : Hashes (pairUp leaves) level position pair) :
    Hashes leaves (level + 1) position pair := by
  obtain ⟨row, hrow, hposition⟩ := hpair
  exact ⟨row, by rw [hashed_eq_cons h, List.getElem?_cons_succ, hrow], hposition⟩

theorem Collide.of_pairUp (h : 1 < leaves.length) (h' : 1 < leaves'.length)
    (hcollide : Collide (pairUp leaves) (pairUp leaves')) : Collide leaves leaves' := by
  obtain ⟨level, position, pair, pair', hpair, hpair', hdiffer, hsame⟩ := hcollide
  exact ⟨level + 1, position, pair, pair', hashes_succ h hpair, hashes_succ h' hpair', hdiffer,
    hsame⟩

/-- Levels that differ and are followed by the same level. -/
theorem collide_of_pairUp_eq (h : 1 < leaves.length) (hlength : leaves.length = leaves'.length)
    (hdiffer : leaves ≠ leaves') (hnext : pairUp leaves = pairUp leaves') :
    Collide leaves leaves' := by
  have hcount : (pairs leaves).length = (pairs leaves').length := by
    rw [length_pairs, length_pairs, hlength]
  obtain ⟨position, hposition, hplace⟩ : ∃ position, ∃ hposition : position < (pairs leaves).length,
      (pairs leaves)[position] ≠ (pairs leaves')[position] := by
    by_contra hsame
    push Not at hsame
    exact hdiffer (pairs_inj hlength (List.ext_getElem hcount fun i hi _ => hsame i hi))
  have hposition' : position < (pairs leaves').length := hcount ▸ hposition
  have hhash : doubleSha256 (joined (pairs leaves)[position]) =
      doubleSha256 (joined (pairs leaves')[position]) := by
    have hnode := congrArg (fun nodes => nodes[position]?) hnext
    simpa [pairUp_eq_map, hposition, hposition'] using hnode
  exact ⟨0, position, _, _, hashes_zero h (List.getElem?_eq_getElem hposition),
    hashes_zero (hlength ▸ h) (List.getElem?_eq_getElem hposition'),
    fun hjoined => hplace (joined_injective hjoined), hhash⟩

/-- Lists of one length that come to one root are the same, or two different strings of 64 bytes
with one hash occur in the same place of the two computations. -/
theorem eq_or_collide (leaves leaves' : List Hash256) (hlength : leaves.length = leaves'.length)
    (hroot : root? leaves = root? leaves') : leaves = leaves' ∨ Collide leaves leaves' := by
  -- Down from the root: the levels above are the same, or a collision has been met.
  fun_induction root? leaves generalizing leaves' with
  | case1 => exact .inl (List.eq_nil_of_length_eq_zero hlength.symm).symm
  | case2 top =>
    match leaves' with
    | [top'] =>
      rw [root?, Option.some.injEq] at hroot
      exact .inl (by rw [hroot])
  | case3 left right rest ih =>
    have hmany : 1 < (left :: right :: rest).length := by simp
    have hmany' : 1 < leaves'.length := hlength ▸ hmany
    have hnext : (pairUp (left :: right :: rest)).length = (pairUp leaves').length := by
      rw [length_pairUp, length_pairUp, hlength]
    rw [← root?_pairUp hmany'] at hroot
    rcases ih (pairUp leaves') hnext hroot with hsame | hcollide
    · by_cases hleaves : left :: right :: rest = leaves'
      · exact .inl hleaves
      · exact .inr (collide_of_pairUp_eq hmany hlength hleaves hsame)
    · exact .inr (hcollide.of_pairUp hmany hmany')

theorem eq_or_collide_labelled :
    (labelled [1, 2, 3]).length = (labelled [3, 2, 1]).reverse.length ∧
      root? (labelled [1, 2, 3]) = root? (labelled [3, 2, 1]).reverse ∧
      (labelled [1, 2, 3] = (labelled [3, 2, 1]).reverse ∨
        Collide (labelled [1, 2, 3]) (labelled [3, 2, 1]).reverse) :=
  ⟨rfl, rfl, eq_or_collide _ _ rfl rfl⟩

end SpendCheck.Merkle
