import SpendCheck.Proofs.Block.Order
import SpendCheck.Proofs.Trace.Outcome

/-!
# Ranked candidates

Which transactions of a list are candidates for a block, and in which order they are
considered.  A candidate validates, creates no value and can be weighed.  Every weight is
positive, since a version and a lock time are always weighed, and so the rates of any two
candidates can be compared.
-/

namespace SpendCheck

namespace Traced

variable {ε α β : Type}

theorem value_mapM (f : α → Traced ε β) (items : List α) :
    (items.mapM f).value = items.map fun item => (f item).value := by
  induction items with
  | nil => rfl
  | cons item items ih =>
    rw [List.mapM_cons, List.map_cons, ← ih]
    rfl

end Traced

theorem RawTx.weight_pos (tx : RawTx) : 0 < tx.weight := by
  have hversion : 0 < tx.encodeStripped.length := by
    simp [encodeStripped, Bytes.ofInt32, Bytes.ofUInt32]
  rw [weight]
  omega

namespace Transaction

variable {tx : Transaction}

theorem weight_pos {weight : Nat} (h : tx.weight = .ok weight) : 0 < weight := by
  obtain ⟨raw, -, rfl⟩ := map_eq_ok.mp h
  exact raw.weight_pos

end Transaction

namespace Validator

variable {v : Validator} {txs : List Transaction} {limits : SelectionLimits} {c : Candidate}

/-- The candidate is a transaction of the list, in its place, with its own fee and weight,
and it validates. -/
structure Eligible (v : Validator) (txs : List Transaction) (c : Candidate) : Prop where
  present : txs[c.position]? = some c.tx
  valid : (v.validate c.tx).value = true
  fee : c.tx.fee? = some c.fee
  weight : c.tx.weight = .ok c.weight

/-- The candidates among some transactions, in their order. -/
def eligible (v : Validator) (txs : List Transaction) : List Candidate :=
  txs.zipIdx.filterMap fun (tx, position) => (v.candidate? tx position).value

/-- The candidates in the order in which they are considered. -/
def ranked (v : Validator) (txs : List Transaction) : List Candidate :=
  (v.eligible txs).mergeSort Candidate.paysAtLeast

theorem value_candidate?_eq_some {tx : Transaction} {position : Nat} :
    (v.candidate? tx position).value = some c ↔
      c.position = position ∧ c.tx = tx ∧ (v.validate tx).value = true ∧
        tx.fee? = some c.fee ∧ tx.weight = .ok c.weight := by
  rw [candidate?, Traced.value_bind]
  cases hvalid : (v.validate tx).value with
  | false => simp
  | true =>
    cases hfee : tx.fee? with
    | none => simp
    | some fee =>
      cases hweight : tx.weight with
      | error e => simp [Functor.map]
      | ok weight =>
        obtain ⟨_, _, _, _⟩ := c
        simp only [if_true, Traced.value_pure, Option.some.injEq, Candidate.mk.injEq,
          Except.ok.injEq, true_and]
        exact and_congr eq_comm (and_congr eq_comm Iff.rfl)

theorem mem_eligible : c ∈ v.eligible txs ↔ v.Eligible txs c := by
  simp only [eligible, List.mem_filterMap, Prod.exists, List.mk_mem_zipIdx_iff_getElem?,
    value_candidate?_eq_some]
  constructor
  · intro h
    obtain ⟨tx, position, hpresent, rfl, rfl, hvalid, hfee, hweight⟩ := h
    exact ⟨hpresent, hvalid, hfee, hweight⟩
  · intro h
    exact ⟨c.tx, c.position, h.present, rfl, rfl, h.valid, h.fee, h.weight⟩

theorem pairwise_position_eligible :
    (v.eligible txs).Pairwise fun a b => a.position < b.position := by
  have hplaces : txs.zipIdx.Pairwise fun a b => a.2 < b.2 := by
    rw [← List.pairwise_map (f := Prod.snd), List.zipIdx_map_snd]
    exact List.pairwise_lt_range'
  refine hplaces.filterMap _ fun a b hab c hc d hd => ?_
  rw [(value_candidate?_eq_some.mp hc).1, (value_candidate?_eq_some.mp hd).1]
  exact hab

theorem mem_ranked : c ∈ v.ranked txs ↔ v.Eligible txs c :=
  List.mem_mergeSort.trans mem_eligible

theorem weight_pos_of_mem_ranked (h : c ∈ v.ranked txs) : 0 < c.weight :=
  Transaction.weight_pos (mem_ranked.mp h).weight

theorem pairwise_precedes_ranked : (v.ranked txs).Pairwise Candidate.Precedes :=
  Candidate.pairwise_precedes_mergeSort
    (fun _ hc => weight_pos_of_mem_ranked (List.mem_mergeSort.mpr hc)) pairwise_position_eligible

theorem nodup_position_ranked : ((v.ranked txs).map Candidate.position).Nodup := by
  have hplaces : ((v.eligible txs).map Candidate.position).Nodup := by
    rw [List.nodup_iff_pairwise_ne, List.pairwise_map]
    exact pairwise_position_eligible.imp Nat.ne_of_lt
  exact ((List.mergeSort_perm _ _).map Candidate.position).nodup_iff.mpr hplaces

theorem nodup_ranked : (v.ranked txs).Nodup := nodup_position_ranked.of_map

theorem value_select :
    (v.select limits txs).value = Selection.greedy limits (v.ranked txs) := by
  rw [select, Traced.value_bind, Traced.value_bind, Traced.value_pure, Traced.value_mapM,
    List.filterMap_map]
  rfl

end Validator
end SpendCheck
