import SpendCheck.Proofs.Block.Greedy
import SpendCheck.Proofs.Block.Ranking
import SpendCheck.Proofs.Validation.Accepts

/-!
# Selections

A selection is made from the ranked candidates, each of which is taken just where it fits
beside those taken before it.  So rates go down along a selection, and no candidate that is
left out could be added to it.
-/

namespace SpendCheck
namespace Validator

open Selection

variable {v : Validator} {txs : List Transaction} {limits : SelectionLimits} {c : Candidate}

theorem chosen_sublist_ranked :
    (v.select limits txs).value.chosen.Sublist (v.ranked txs) :=
  value_select ▸ chosen_sublist limits (v.ranked txs)

theorem keeps_select : Keeps limits (v.select limits txs).value :=
  value_select ▸ keeps_greedy limits (v.ranked txs)

theorem eligible_of_mem_chosen (h : c ∈ (v.select limits txs).value.chosen) :
    v.Eligible txs c := mem_ranked.mp (chosen_sublist_ranked.subset h)

theorem pairwise_rate_chosen : (v.select limits txs).value.chosen.Pairwise
    fun a b => b.fee * a.weight ≤ a.fee * b.weight := by
  refine (pairwise_precedes_ranked.sublist chosen_sublist_ranked).imp_of_mem ?_
  intro a b ha hb hab
  have hrate : b.rate ≤ a.rate := by
    obtain hless | ⟨hequal, -⟩ := hab
    · exact hless.le
    · exact hequal.le
  exact (Candidate.rate_le_rate_iff
    (weight_pos_of_mem_ranked (chosen_sublist_ranked.subset ha))
    (weight_pos_of_mem_ranked (chosen_sublist_ranked.subset hb))).mp hrate

/-- What a candidate that is left out would take too much of. -/
theorem exceeds_of_not_mem_chosen (heligible : v.Eligible txs c)
    (hpassed : c ∉ (v.select limits txs).value.chosen) :
    limits.maxWeight.toNat < min ((v.select limits txs).value.weight + c.weight) (2 ^ 64 - 1) ∨
      limits.maxFee.toNat < min ((v.select limits txs).value.fee + c.fee) (2 ^ 64 - 1) := by
  have hkeeps : Keeps limits (v.select limits txs).value := keeps_select
  have hfits : ¬ Fits limits (v.select limits txs).value.chosen c := by
    rw [value_select] at hpassed ⊢
    exact not_fits_of_not_mem nodup_ranked (mem_ranked.mpr heligible) hpassed
  rw [Fits, total_concat, total_concat, ← hkeeps.weight, ← hkeeps.fee, cappedAdd, cappedAdd,
    ceiling] at hfits
  omega

/-- The selection is greedy.  The candidates are ordered by their exact rates, ties by their
places, and each is taken just where it fits beside those taken before it. -/
theorem select_greedy (v : Validator) (limits : SelectionLimits) (txs : List Transaction) :
    let s := (v.select limits txs).value
    ∃ order : List Candidate,
      (∀ c, c ∈ order ↔ v.Eligible txs c) ∧ order.Pairwise Candidate.Precedes ∧
      s.chosen.Sublist order ∧ (s.chosen.map Candidate.position).Nodup ∧
      (∀ c ∈ s.chosen, v.Eligible txs c) ∧
      (∀ earlier c later, order = earlier ++ c :: later →
        (c ∈ s.chosen ↔ Fits limits (s.chosen.filter fun taken => taken ∈ earlier) c)) ∧
      s.chosen.Pairwise (fun a b => b.fee * a.weight ≤ a.fee * b.weight) ∧
      (∀ c, v.Eligible txs c → c ∉ s.chosen →
        limits.maxWeight.toNat < min (s.weight + c.weight) (2 ^ 64 - 1) ∨
          limits.maxFee.toNat < min (s.fee + c.fee) (2 ^ 64 - 1)) := by
  intro s
  have hplaces : (s.chosen.map Candidate.position).Nodup :=
    nodup_position_ranked.sublist (chosen_sublist_ranked.map Candidate.position)
  refine ⟨v.ranked txs, fun _ => mem_ranked, pairwise_precedes_ranked, chosen_sublist_ranked,
    hplaces, fun _ => eligible_of_mem_chosen, ?_, pairwise_rate_chosen,
    fun _ => exceeds_of_not_mem_chosen⟩
  intro earlier c later hsplit
  have hnodup : (earlier ++ c :: later).Nodup := hsplit ▸ nodup_ranked
  have hs : s = greedy limits (earlier ++ c :: later) := hsplit ▸ value_select
  rw [hs, chosen_filter_earlier hnodup, mem_chosen_iff hnodup]

/-- One taproot input, which is not evaluated, and no output: the whole value is paid. -/
def paying (value : UInt64) : Transaction :=
  .ofInputs [{ Input.spending .v1P2tr "" with prevout.value := value }]

def payment (value : UInt64) (position : Nat) : Candidate where
  position := position
  tx := paying value
  fee := value.toNat
  weight := 204

theorem fee?_paying (value : UInt64) : (paying value).fee? = some value.toNat := by
  have hvalue : value.toNat < 0x10000000000000000 := value.toNat_lt
  simp [paying, Transaction.ofInputs, Transaction.fee?, Transaction.total?, hvalue]

theorem weight_paying (value : UInt64) : (paying value).weight = .ok 204 := by cbv

theorem candidate?_paying (value : UInt64) (position : Nat) :
    (trusting.candidate? (paying value) position).value = some (payment value position) :=
  value_candidate?_eq_some.mpr ⟨rfl, rfl, rfl, fee?_paying value, weight_paying value⟩

/-- Payments, and one comparison that fails. -/
def mempool : List Transaction :=
  [paying 5, paying 9,
    .ofInputs [{ Input.spending .p2pkh "OP_EQUAL" with scriptSigAsm := "01 02" }],
    paying 5, paying 1]

theorem ranked_mempool : trusting.ranked mempool =
    [payment 9 1, payment 5 0, payment 5 3, payment 1 4] := by
  have heligible : trusting.eligible mempool =
      [payment 5 0, payment 9 1, payment 5 3, payment 1 4] := by
    simp only [eligible, mempool, List.zipIdx_cons, List.filterMap_cons, candidate?_paying]
    rfl
  rw [ranked, heligible]
  simp [List.mergeSort, List.MergeSort.Internal.splitInTwo, List.splitAt, List.splitAt.go,
    Candidate.paysAtLeast, payment]

/-- Of the two that pay alike the later one does not fit, and the smallest is still taken. -/
theorem select_greedy_mempool :
    (trusting.select { maxFee := 15 } mempool).value =
        ofChosen [payment 9 1, payment 5 0, payment 1 4] ∧
      (3990000 < min (612 + 204) (2 ^ 64 - 1) ∨ 15 < min (15 + 5) (2 ^ 64 - 1)) := by
  have hselected : (trusting.select { maxFee := 15 } mempool).value =
      ofChosen [payment 9 1, payment 5 0, payment 1 4] := by
    rw [value_select, ranked_mempool]
    rfl
  obtain ⟨-, -, -, -, -, -, -, -, hpassed⟩ := select_greedy trusting { maxFee := 15 } mempool
  have heligible : trusting.Eligible mempool (payment 5 3) :=
    mem_ranked.mp (by simp [ranked_mempool])
  have hpassedOver : payment 5 3 ∉ (trusting.select { maxFee := 15 } mempool).value.chosen := by
    rw [hselected]
    simp [ofChosen, payment]
  have hleft := hpassed (payment 5 3) heligible hpassedOver
  rw [hselected] at hleft
  exact ⟨hselected, hleft⟩

end Validator
end SpendCheck
