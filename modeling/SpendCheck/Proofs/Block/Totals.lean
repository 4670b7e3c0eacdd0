import SpendCheck.Proofs.Block.Selection

/-!
# Totals of a selection

What a transaction pays is exact, since its fee is known only where both of its sums fit 64
bits.  The totals of a selection are the exact sums up to the ceiling, where they stay.  A
limit below the ceiling is therefore a limit on the exact sum, while a limit that is the
ceiling itself excludes nothing.
-/

namespace SpendCheck

namespace Transaction

variable {tx : Transaction} {fee : Nat}

/-- The value of the outputs that are spent. -/
def spent (tx : Transaction) : Nat := (tx.inputs.map fun i => i.prevout.value.toNat).sum

/-- The value of the outputs that are created. -/
def created (tx : Transaction) : Nat := (tx.outputs.map fun o => o.value.toNat).sum

/-- What is spent beyond what is created, or below zero what is missing. -/
def surplus (tx : Transaction) : ℤ := tx.spent - tx.created

theorem total?_eq_some {values : List UInt64} {sum : Nat} :
    total? values = some sum ↔
      (values.map UInt64.toNat).sum = sum ∧ sum < 0x10000000000000000 := by
  rw [total?, ← List.foldr_map, ← List.sum_eq_foldr]
  split <;> rename_i hfits
  · simp only [Option.some.injEq]
    exact ⟨fun hsum => ⟨hsum, hsum ▸ hfits⟩, fun h => h.1⟩
  · simp only [reduceCtorEq, false_iff]
    exact fun h => hfits (h.1 ▸ h.2)

theorem total?_spent {sum : Nat} :
    total? (tx.inputs.map fun i => i.prevout.value) = some sum ↔
      tx.spent = sum ∧ sum < 0x10000000000000000 := by
  rw [total?_eq_some, List.map_map]
  rfl

theorem total?_created {sum : Nat} :
    total? (tx.outputs.map fun o => o.value) = some sum ↔
      tx.created = sum ∧ sum < 0x10000000000000000 := by
  rw [total?_eq_some, List.map_map]
  rfl

/-- A fee is known where both sums fit and no value is created, and it is what is paid. -/
theorem fee?_eq_some : tx.fee? = some fee ↔
    tx.spent < 0x10000000000000000 ∧ tx.created < 0x10000000000000000 ∧
      (fee : ℤ) = tx.surplus := by
  simp only [fee?, Option.bind_eq_bind, Option.bind_eq_some_iff, total?_spent, total?_created,
    Option.ite_none_right_eq_some, Option.some.injEq, surplus]
  constructor
  · intro h
    obtain ⟨_, ⟨rfl, hspent⟩, _, ⟨rfl, hcreated⟩, hle, hfee⟩ := h
    exact ⟨hspent, hcreated, by omega⟩
  · intro h
    obtain ⟨hspent, hcreated, hfee⟩ := h
    exact ⟨_, ⟨rfl, hspent⟩, _, ⟨rfl, hcreated⟩, by omega, by omega⟩

end Transaction

namespace Validator

open Selection

variable {v : Validator} {txs : List Transaction} {limits : SelectionLimits} {c : Candidate}

theorem Eligible.surplus (h : v.Eligible txs c) : (c.fee : ℤ) = c.tx.surplus :=
  (Transaction.fee?_eq_some.mp h.fee).2.2

/-- What the chosen transactions pay, added up exactly. -/
theorem sum_fee_chosen : (((v.select limits txs).value.chosen.map Candidate.fee).sum : ℤ) =
    ((v.select limits txs).value.chosen.map fun c => c.tx.surplus).sum := by
  rw [Nat.cast_list_sum, List.map_map]
  exact congrArg List.sum
    (List.map_congr_left fun c hc => (eligible_of_mem_chosen hc).surplus)

/-- Each candidate of a selection pays what its transaction has to spare, and the totals are
the sums of these and of the weights as far as the ceiling.  A limit below the ceiling is kept
by the exact sum. -/
theorem select_totals (v : Validator) (limits : SelectionLimits) (txs : List Transaction) :
    let s := (v.select limits txs).value
    let fees : ℤ := (s.chosen.map fun c => c.tx.surplus).sum
    let weights := (s.chosen.map Candidate.weight).sum
    (∀ c ∈ s.chosen, 0 ≤ c.tx.surplus ∧ c.tx.surplus = c.fee ∧ c.tx.weight = .ok c.weight) ∧
      (s.fee : ℤ) = min fees (2 ^ 64 - 1) ∧ s.weight = min weights (2 ^ 64 - 1) ∧
      s.fee ≤ limits.maxFee.toNat ∧ s.weight ≤ limits.maxWeight.toNat ∧
      (limits.maxFee.toNat < 2 ^ 64 - 1 → (s.fee : ℤ) = fees ∧ fees ≤ limits.maxFee.toNat) ∧
      (limits.maxWeight.toNat < 2 ^ 64 - 1 →
        s.weight = weights ∧ weights ≤ limits.maxWeight.toNat) := by
  intro s fees weights
  have hkeeps : Keeps limits s := keeps_select
  have hfees : ((s.chosen.map Candidate.fee).sum : ℤ) = fees := sum_fee_chosen
  have hfee : (s.fee : ℤ) = min fees (2 ^ 64 - 1) := by
    rw [hkeeps.fee, total, Nat.cast_min, hfees]
    norm_num
  have hweight : s.weight = min weights (2 ^ 64 - 1) := hkeeps.weight
  have hmaxFee := hkeeps.maxFee
  have hmaxWeight := hkeeps.maxWeight
  refine ⟨?chosen, hfee, hweight, hmaxFee, hmaxWeight, ?exactFee, ?exactWeight⟩
  case chosen =>
    intro c hc
    have heligible : v.Eligible txs c := eligible_of_mem_chosen hc
    exact ⟨heligible.surplus ▸ Int.natCast_nonneg _, heligible.surplus.symm, heligible.weight⟩
  case exactFee =>
    intro hlimit
    omega
  case exactWeight =>
    intro hlimit
    omega

theorem surplus_paying (value : UInt64) : (paying value).surplus = value.toNat :=
  (Transaction.fee?_eq_some.mp (fee?_paying value)).2.2.symm

/-- Two payments of the largest value that can be written. -/
def richest : List Transaction := [paying 0xffffffffffffffff, paying 0xffffffffffffffff]

theorem ranked_richest : trusting.ranked richest =
    [payment 0xffffffffffffffff 0, payment 0xffffffffffffffff 1] := by
  have heligible : trusting.eligible richest =
      [payment 0xffffffffffffffff 0, payment 0xffffffffffffffff 1] := by
    simp only [eligible, richest, List.zipIdx_cons, List.filterMap_cons, candidate?_paying]
    rfl
  rw [ranked, heligible, List.mergeSort_of_pairwise]
  simp [Candidate.paysAtLeast, payment]

theorem select_richest : (trusting.select { maxFee := 0xffffffffffffffff } richest).value =
    ofChosen [payment 0xffffffffffffffff 0, payment 0xffffffffffffffff 1] := by
  rw [value_select, ranked_richest]
  rfl

/-- The fees, with no limit below the ceiling, add up to the ceiling only; the weights, with
one, add up exactly. -/
theorem select_totals_richest :
    ((trusting.select { maxFee := 0xffffffffffffffff } richest).value.fee : ℤ) =
        min (2 * 0xffffffffffffffff) (2 ^ 64 - 1) ∧
      (trusting.select { maxFee := 0xffffffffffffffff } richest).value.weight = 408 := by
  obtain ⟨-, hfee, -, -, -, -, hweight⟩ :=
    select_totals trusting { maxFee := 0xffffffffffffffff } richest
  have hlimit : (3990000 : UInt64).toNat < 2 ^ 64 - 1 := by decide
  have hexact := (hweight hlimit).1
  rw [select_richest] at hfee hexact ⊢
  constructor
  · rw [hfee]
    simp [ofChosen, payment, surplus_paying]
  · exact hexact

/-- Where the limit is the ceiling itself, the totals of a selection are not exact. -/
theorem not_select_totals_exact :
    ¬ ∀ (v : Validator) (limits : SelectionLimits) (txs : List Transaction),
      let s := (v.select limits txs).value
      (∀ c ∈ s.chosen, 0 ≤ c.tx.surplus ∧ c.tx.weight = .ok c.weight) ∧
        (s.fee : ℤ) = (s.chosen.map fun c => c.tx.surplus).sum ∧
        s.weight = (s.chosen.map Candidate.weight).sum ∧
        s.fee ≤ limits.maxFee.toNat ∧ s.weight ≤ limits.maxWeight.toNat := by
  intro hexact
  obtain ⟨-, hfee, -⟩ := hexact trusting { maxFee := 0xffffffffffffffff } richest
  rw [select_richest] at hfee
  simp [ofChosen, total, payment, surplus_paying] at hfee

end Validator
end SpendCheck
