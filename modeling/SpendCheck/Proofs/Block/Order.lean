import Mathlib
import SpendCheck.Block.Select

/-!
# The order of candidates

Candidates are compared crosswise, fee times weight against fee times weight.  As long as
every weight is positive this is the order of the exact rates, so it is total and
transitive, and sorting by it leaves candidates of one rate in the places they had.
-/

namespace SpendCheck
namespace Candidate

variable {candidates : List Candidate}

/-- What the candidate pays for its weight, as an exact fraction. -/
def rate (c : Candidate) : ℚ := (c.fee : ℚ) / c.weight

/-- The candidate is considered first: it pays more for its weight, or as much from an
earlier place. -/
def Precedes (a b : Candidate) : Prop :=
  b.rate < a.rate ∨ b.rate = a.rate ∧ a.position < b.position

theorem rate_le_rate_iff {a b : Candidate} (ha : 0 < a.weight) (hb : 0 < b.weight) :
    b.rate ≤ a.rate ↔ b.fee * a.weight ≤ a.fee * b.weight := by
  have ha' : (0 : ℚ) < a.weight := Nat.cast_pos.mpr ha
  have hb' : (0 : ℚ) < b.weight := Nat.cast_pos.mpr hb
  rw [rate, rate, div_le_div_iff₀ hb' ha']
  exact_mod_cast Iff.rfl

/-- The order of the exact rates. -/
def byRate (a b : Candidate) : Bool := b.rate ≤ a.rate

theorem byRate_trans (a b c : Candidate) (hab : byRate a b = true) (hbc : byRate b c = true) :
    byRate a c = true := by
  simp only [byRate, decide_eq_true_eq] at *
  exact hbc.trans hab

theorem byRate_total (a b : Candidate) : (byRate a b || byRate b a) = true := by
  simpa [byRate] using le_total b.rate a.rate

theorem mergeSort_paysAtLeast (hweight : ∀ c ∈ candidates, 0 < c.weight) :
    candidates.mergeSort paysAtLeast = candidates.mergeSort byRate := by
  have hsame : ∀ a ∈ candidates, ∀ b ∈ candidates, paysAtLeast a b = byRate (id a) (id b) := by
    intro a ha b hb
    simp only [paysAtLeast, byRate, id_eq, decide_eq_decide]
    exact (rate_le_rate_iff (hweight a ha) (hweight b hb)).symm
  have hsorted := List.map_mergeSort hsame
  rwa [List.map_id, List.map_id] at hsorted

/-- Sorting keeps the candidates of one rate in their order. -/
theorem filter_rate_mergeSort (rate : ℚ) :
    (candidates.mergeSort byRate).filter (fun c => c.rate = rate) =
      candidates.filter (fun c => c.rate = rate) := by
  have hties : (candidates.filter fun c => c.rate = rate).Pairwise
      (fun a b => byRate a b = true) := by
    rw [List.pairwise_filter]
    refine List.pairwise_of_forall fun a b ha hb => ?_
    simp only [decide_eq_true_eq] at ha hb
    simp [byRate, ha, hb]
  have hkept : (candidates.filter fun c => c.rate = rate).Sublist (candidates.mergeSort byRate) :=
    List.sublist_mergeSort byRate_trans byRate_total hties List.filter_sublist
  have hinside := hkept.filter fun c => decide (c.rate = rate)
  simp only [List.filter_filter, Bool.and_self] at hinside
  have hcount := ((List.mergeSort_perm candidates byRate).filter
    fun c => decide (c.rate = rate)).length_eq
  exact (hinside.eq_of_length hcount.symm).symm

/-- The sorted candidates stand in the order in which they are to be considered. -/
theorem pairwise_precedes_mergeSort (hweight : ∀ c ∈ candidates, 0 < c.weight)
    (hplaces : candidates.Pairwise fun a b => a.position < b.position) :
    (candidates.mergeSort paysAtLeast).Pairwise Precedes := by
  rw [mergeSort_paysAtLeast hweight, List.pairwise_iff_forall_sublist]
  intro a b hab
  have hrate : b.rate ≤ a.rate := by
    have hsorted := List.pairwise_mergeSort byRate_trans byRate_total candidates
    simpa [byRate] using List.pairwise_iff_forall_sublist.mp hsorted hab
  obtain hless | hequal := hrate.lt_or_eq
  · exact .inl hless
  · -- Of one rate, the two stand as they stood before.
    have htied := hab.filter fun c => decide (c.rate = a.rate)
    rw [filter_rate_mergeSort, List.filter_cons_of_pos (by simp),
      List.filter_cons_of_pos (by simpa using hequal), List.filter_nil] at htied
    have hbefore : [a, b].Sublist candidates := htied.trans List.filter_sublist
    exact .inr ⟨hequal, List.pairwise_iff_forall_sublist.mp hplaces hbefore⟩

end Candidate
end SpendCheck
