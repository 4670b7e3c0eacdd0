import Mathlib
import SpendCheck.Block.Select

/-!
# Taking what fits

Candidates are considered one after the other, and whether one is taken is settled by
those taken before it.  The totals are sums that stay at their ceiling, so they tell the
exact sums apart only below it.  They never go down, and so a candidate that was passed
over would still not fit when all have been considered.
-/

namespace SpendCheck
namespace Selection

/-- The sum of some measure of the candidates, as far as 64 bits hold it. -/
def total (measure : Candidate → Nat) (taken : List Candidate) : Nat :=
  min (taken.map measure).sum (2 ^ 64 - 1)

/-- With the candidate beside those that are taken, neither total passes its limit. -/
def Fits (limits : SelectionLimits) (taken : List Candidate) (c : Candidate) : Prop :=
  total Candidate.weight (taken ++ [c]) ≤ limits.maxWeight.toNat ∧
    total Candidate.fee (taken ++ [c]) ≤ limits.maxFee.toNat

instance (limits : SelectionLimits) (taken : List Candidate) (c : Candidate) :
    Decidable (Fits limits taken c) := inferInstanceAs (Decidable (_ ∧ _))

theorem total_concat (measure : Candidate → Nat) (taken : List Candidate) (c : Candidate) :
    total measure (taken ++ [c]) = cappedAdd (total measure taken) (measure c) := by
  simp only [total, cappedAdd, ceiling, List.map_append, List.map_cons, List.map_nil,
    List.sum_append, List.sum_singleton]
  omega

theorem total_mono (measure : Candidate → Nat) {taken more : List Candidate}
    (h : taken.Sublist more) : total measure taken ≤ total measure more := by
  have hsum : (taken.map measure).sum ≤ (more.map measure).sum :=
    (h.map measure).sum_le_sum fun _ _ => Nat.zero_le _
  exact min_le_min_right (2 ^ 64 - 1) hsum

/-- What fits beside many fits beside a part of them. -/
theorem Fits.of_sublist {limits : SelectionLimits} {taken more : List Candidate} {c : Candidate}
    (hfits : Fits limits more c) (h : taken.Sublist more) : Fits limits taken c := by
  have hbeside : (taken ++ [c]).Sublist (more ++ [c]) := h.append (.refl [c])
  obtain ⟨hmaxWeight, hmaxFee⟩ := hfits
  exact ⟨(total_mono Candidate.weight hbeside).trans hmaxWeight,
    (total_mono Candidate.fee hbeside).trans hmaxFee⟩

/-- A selection as its candidates determine it, within the limits. -/
structure Keeps (limits : SelectionLimits) (s : Selection) : Prop where
  fee : s.fee = total Candidate.fee s.chosen
  weight : s.weight = total Candidate.weight s.chosen
  maxFee : s.fee ≤ limits.maxFee.toNat
  maxWeight : s.weight ≤ limits.maxWeight.toNat

variable {limits : SelectionLimits} {s : Selection} {c : Candidate}

theorem keeps_empty : Keeps limits empty where
  fee := rfl
  weight := rfl
  maxFee := Nat.zero_le _
  maxWeight := Nat.zero_le _

/-- The selection of these candidates. -/
def ofChosen (chosen : List Candidate) : Selection where
  chosen := chosen
  fee := total Candidate.fee chosen
  weight := total Candidate.weight chosen

/-- A candidate that fits is added at the end, and any other changes nothing. -/
theorem consider_cases (hkeeps : Keeps limits s) :
    (Fits limits s.chosen c ∧ consider limits s c = ofChosen (s.chosen ++ [c])) ∨
      (¬ Fits limits s.chosen c ∧ consider limits s c = s) := by
  by_cases hfits : Fits limits s.chosen c
  · refine .inl ⟨hfits, ?_⟩
    rw [ofChosen, total_concat, total_concat, ← hkeeps.weight, ← hkeeps.fee]
    rw [Fits, total_concat, total_concat, ← hkeeps.weight, ← hkeeps.fee] at hfits
    rw [consider, if_pos hfits]
  · refine .inr ⟨hfits, ?_⟩
    rw [Fits, total_concat, total_concat, ← hkeeps.weight, ← hkeeps.fee] at hfits
    rw [consider, if_neg hfits]

theorem Keeps.consider (hkeeps : Keeps limits s) (c : Candidate) :
    Keeps limits (consider limits s c) := by
  obtain ⟨hfits, htaken⟩ | ⟨-, hpassed⟩ := consider_cases (c := c) hkeeps
  · rw [htaken]
    obtain ⟨hmaxWeight, hmaxFee⟩ := hfits
    exact ⟨rfl, rfl, hmaxFee, hmaxWeight⟩
  · rw [hpassed]
    exact hkeeps

theorem greedy_concat (limits : SelectionLimits) (candidates : List Candidate) (c : Candidate) :
    greedy limits (candidates ++ [c]) = consider limits (greedy limits candidates) c := by
  rw [greedy, greedy, List.foldl_append, List.foldl_cons, List.foldl_nil]

theorem keeps_greedy (limits : SelectionLimits) (candidates : List Candidate) :
    Keeps limits (greedy limits candidates) := by
  induction candidates using List.reverseRecOn with
  | nil => exact keeps_empty
  | append_singleton candidates c ih =>
    rw [greedy_concat]
    exact ih.consider c

/-- The candidates that come later add to the selection, and take nothing away. -/
theorem exists_chosen_append (limits : SelectionLimits) (earlier later : List Candidate) :
    ∃ added, (greedy limits (earlier ++ later)).chosen = (greedy limits earlier).chosen ++ added ∧
      added.Sublist later := by
  induction later using List.reverseRecOn with
  | nil => exact ⟨[], by simp, .slnil⟩
  | append_singleton later c ih =>
    obtain ⟨added, hadded, hsublist⟩ := ih
    rw [← List.append_assoc, greedy_concat]
    obtain ⟨-, htaken⟩ | ⟨-, hpassed⟩ :=
      consider_cases (c := c) (keeps_greedy limits (earlier ++ later))
    · refine ⟨added ++ [c], ?_, hsublist.append (.refl [c])⟩
      rw [htaken, ofChosen, hadded, List.append_assoc]
    · refine ⟨added, ?_, hsublist.trans (List.sublist_append_left later [c])⟩
      rw [hpassed, hadded]

theorem chosen_sublist (limits : SelectionLimits) (candidates : List Candidate) :
    (greedy limits candidates).chosen.Sublist candidates := by
  obtain ⟨added, hadded, hsublist⟩ := exists_chosen_append limits [] candidates
  rw [List.nil_append] at hadded
  rw [hadded]
  exact hsublist

section Place

variable {earlier later : List Candidate} (hnodup : (earlier ++ c :: later).Nodup)

include hnodup

/-- The candidates taken before one is considered are those of the selection that stand in
front of it. -/
theorem chosen_filter_earlier :
    (greedy limits (earlier ++ c :: later)).chosen.filter (fun taken => taken ∈ earlier) =
      (greedy limits earlier).chosen := by
  obtain ⟨added, hadded, hsublist⟩ := exists_chosen_append limits earlier (c :: later)
  have hdisjoint := List.disjoint_of_nodup_append hnodup
  rw [hadded, List.filter_append, List.filter_eq_self.mpr, List.filter_eq_nil_iff.mpr,
    List.append_nil]
  · intro taken htaken
    simpa using fun hearlier => hdisjoint hearlier (hsublist.subset htaken)
  · intro taken htaken
    simpa using (chosen_sublist limits earlier).subset htaken

/-- A candidate is taken just where it fits beside those taken before it. -/
theorem mem_chosen_iff :
    c ∈ (greedy limits (earlier ++ c :: later)).chosen ↔
      Fits limits (greedy limits earlier).chosen c := by
  have hsplit : earlier ++ c :: later = (earlier ++ [c]) ++ later := by simp
  have hearlier : c ∉ (greedy limits earlier).chosen := fun hmem =>
    List.disjoint_of_nodup_append hnodup ((chosen_sublist limits earlier).subset hmem)
      List.mem_cons_self
  obtain ⟨added, hadded, hsublist⟩ := exists_chosen_append limits (earlier ++ [c]) later
  have hlater : c ∉ added := fun hmem =>
    (List.nodup_cons.mp (List.nodup_append.mp hnodup).2.1).1 (hsublist.subset hmem)
  rw [hsplit, hadded, List.mem_append, or_iff_left hlater, greedy_concat]
  obtain ⟨hfits, htaken⟩ | ⟨hfits, hpassed⟩ :=
    consider_cases (c := c) (keeps_greedy limits earlier)
  · simp [htaken, ofChosen, hfits]
  · rw [hpassed]
    exact ⟨fun hmem => absurd hmem hearlier, fun hfit => absurd hfit hfits⟩

end Place

/-- A candidate that was passed over does not fit beside all that were taken. -/
theorem not_fits_of_not_mem {candidates : List Candidate} (hnodup : candidates.Nodup)
    (hmem : c ∈ candidates) (hpassed : c ∉ (greedy limits candidates).chosen) :
    ¬ Fits limits (greedy limits candidates).chosen c := by
  obtain ⟨earlier, later, rfl⟩ := List.append_of_mem hmem
  rw [mem_chosen_iff hnodup] at hpassed
  intro hfits
  obtain ⟨added, hadded, -⟩ := exists_chosen_append limits earlier (c :: later)
  refine hpassed (hfits.of_sublist ?_)
  rw [hadded]
  exact List.sublist_append_left _ added

end Selection
end SpendCheck
