import SpendCheck.Proofs.Block.Mining

/-!
# The search for a nonce

Mining tries the nonces that it is offered in their order and ends at the first good one, whose
header it gives out.  Where there is none it says so.  A span offers its nonces in increasing
order, so mining over a span finds the least good one, and mining over all nonces fails only
for a template that no nonce is good for.
-/

namespace SpendCheck

namespace Nonces

variable {first last nonce : UInt32}

/-- The numbers that a span counts through are those of its nonces. -/
theorem toNat_ofNat_of_mem {n : Nat}
    (hn : n ∈ List.range' first.toNat (last.toNat + 1 - first.toNat)) :
    first.toNat ≤ n ∧ n ≤ last.toNat ∧ (UInt32.ofNat n).toNat = n := by
  rw [List.mem_range'_1] at hn
  have hlast : last.toNat < UInt32.size := last.toNat_lt
  have hbound : n < UInt32.size := by omega
  exact ⟨hn.1, by omega, UInt32.toNat_ofNat_of_lt' hbound⟩

theorem mem_toList_span : nonce ∈ (span first last).toList ↔ first ≤ nonce ∧ nonce ≤ last := by
  rw [toList, List.mem_map, UInt32.le_iff_toNat_le, UInt32.le_iff_toNat_le]
  constructor
  · intro h
    obtain ⟨n, hn, rfl⟩ := h
    obtain ⟨hfirst, hlast, hvalue⟩ := toNat_ofNat_of_mem hn
    rw [hvalue]
    exact ⟨hfirst, hlast⟩
  · intro h
    have hrange : nonce.toNat ∈ List.range' first.toNat (last.toNat + 1 - first.toNat) := by
      rw [List.mem_range'_1]
      omega
    exact ⟨nonce.toNat, hrange, UInt32.ofNat_toNat⟩

/-- A span offers its nonces in increasing order. -/
theorem pairwise_toList_span : (span first last).toList.Pairwise (· < ·) := by
  rw [toList, List.pairwise_map]
  apply (List.pairwise_lt_range' (s := first.toNat)).imp_of_mem
  intro a b ha hb hab
  obtain ⟨-, -, hvalue⟩ := toNat_ofNat_of_mem ha
  obtain ⟨-, -, hvalue'⟩ := toNat_ofNat_of_mem hb
  rw [UInt32.lt_iff_toNat_lt, hvalue, hvalue']
  exact hab

theorem mem_toList_all (nonce : UInt32) : nonce ∈ all.toList := by
  have hlast : nonce.toNat < 2 ^ 32 := nonce.toNat_lt
  apply mem_toList_span.mpr
  rw [UInt32.le_iff_toNat_le, UInt32.le_iff_toNat_le]
  show 0 ≤ nonce.toNat ∧ nonce.toNat ≤ 2 ^ 32 - 1
  omega

end Nonces

namespace HeaderTemplate

variable {t : HeaderTemplate} {nonces : Nonces} {header : Header} {nonce : UInt32}

/-- With this nonce the number that the hash of the header spells is below the target. -/
def Meets (t : HeaderTemplate) (nonce : UInt32) : Prop :=
  (t.header nonce).hashValue < Compact.value t.target

/-- The nonce is good, and none that is offered before it is. -/
def FirstGood (t : HeaderTemplate) (offered : List UInt32) (nonce : UInt32) : Prop :=
  t.Meets nonce ∧ ∃ before after, offered = before ++ nonce :: after ∧
    ∀ earlier ∈ before, ¬ t.Meets earlier

theorem not_isBelowTarget_iff (nonce : UInt32) :
    t.isBelowTarget (t.header nonce).hash = false ↔ ¬ t.Meets nonce := by
  rw [← Bool.not_eq_true, isBelowTarget_header_iff, Meets]

theorem find?_eq_some_iff_firstGood {offered : List UInt32} :
    offered.find? (fun nonce => t.isBelowTarget (t.header nonce).hash) = some nonce ↔
      t.FirstGood offered nonce := by
  rw [List.find?_eq_some_iff_append, isBelowTarget_header_iff, FirstGood, Meets]
  simp only [Bool.not_eq_true', not_isBelowTarget_iff]

/-- Among nonces in increasing order the first good one is the least. -/
theorem firstGood_iff_least {offered : List UInt32} (hsorted : offered.Pairwise (· < ·)) :
    t.FirstGood offered nonce ↔ t.Meets nonce ∧ nonce ∈ offered ∧
      ∀ smaller ∈ offered, smaller < nonce → ¬ t.Meets smaller := by
  constructor
  · intro h
    obtain ⟨hgood, before, after, rfl, hbefore⟩ := h
    refine ⟨hgood, by simp, ?_⟩
    intro smaller hmem hless
    have hafter : ∀ later ∈ after, nonce < later :=
      (List.pairwise_cons.mp (List.pairwise_append.mp hsorted).2.1).1
    rcases List.mem_append.mp hmem with hearlier | hlater
    · exact hbefore smaller hearlier
    · rcases List.mem_cons.mp hlater with rfl | hlater
      · exact absurd hless (UInt32.lt_irrefl smaller)
      · exact absurd hless (UInt32.lt_asymm (hafter smaller hlater))
  · intro h
    obtain ⟨hgood, hmem, hleast⟩ := h
    obtain ⟨before, after, rfl⟩ := List.append_of_mem hmem
    refine ⟨hgood, before, after, rfl, ?_⟩
    intro earlier hearlier
    have hless : earlier < nonce :=
      (List.pairwise_append.mp hsorted).2.2 earlier hearlier nonce List.mem_cons_self
    exact hleast earlier (List.mem_append_left _ hearlier) hless

theorem value_mine_eq_ok_iff_firstGood : (t.mine nonces).value = .ok header ↔
    ∃ nonce, t.FirstGood nonces.toList nonce ∧ header = t.header nonce := by
  simp only [value_mine_eq_ok, find?_eq_some_iff_firstGood]

theorem value_mine_eq_error {error : BlockError} : (t.mine nonces).value = .error error ↔
    error = .nonceExhausted ∧ ∀ nonce ∈ nonces.toList, ¬ t.Meets nonce := by
  have hnone : nonces.toList.find? (fun nonce => t.isBelowTarget (t.header nonce).hash) = none ↔
      ∀ nonce ∈ nonces.toList, ¬ t.Meets nonce := by
    simp only [List.find?_eq_none, isBelowTarget_header_iff, Meets]
  rw [← hnone, mine, ← Nonces.find?_eq]
  cases nonces.find? fun nonce => t.isBelowTarget (t.header nonce).hash with
  | none =>
    show (.error .nonceExhausted : Except BlockError Header) = .error error ↔ _
    simp [eq_comm]
  | some nonce =>
    show (.ok (t.header nonce) : Except BlockError Header) = .error error ↔ _
    simp

/-- Over all nonces mining finds the least good one, and fails only where none is good. -/
theorem value_mine_all :
    (t.mine.value = .ok header ↔ ∃ nonce, t.Meets nonce ∧
      (∀ smaller < nonce, ¬ t.Meets smaller) ∧ header = t.header nonce) ∧
    (t.mine.value = .error .nonceExhausted ↔ ∀ nonce, ¬ t.Meets nonce) := by
  have hsorted : Nonces.all.toList.Pairwise (· < ·) := Nonces.pairwise_toList_span
  constructor
  · simp only [value_mine_eq_ok_iff_firstGood, firstGood_iff_least hsorted,
      Nonces.mem_toList_all, true_and, forall_const, and_assoc]
  · simp only [value_mine_eq_error, Nonces.mem_toList_all, true_and, forall_const]

/-- A header is the one with a certain nonce just where it takes everything else from the
template. -/
theorem eq_header_iff : header = t.header nonce ↔
    header.version = t.version ∧ header.prevHash = t.prevHash ∧
      header.merkleRoot = t.merkleRoot ∧ header.time = t.time ∧
      header.bits = Compact.ofTarget t.target ∧ header.nonce = nonce := by
  cases header
  simp only [HeaderTemplate.header, bits, Header.mk.injEq]

/-- Mining finds a header exactly where one of the nonces on offer is good.  The header is then
the one with the first good nonce, and has all else from the template. -/
theorem mine_exact (t : HeaderTemplate) (nonces : Nonces) :
    ((∃ header, (t.mine nonces).value = .ok header) ↔ ∃ nonce ∈ nonces.toList, t.Meets nonce) ∧
    (∀ header, (t.mine nonces).value = .ok header ↔
      header.version = t.version ∧ header.prevHash = t.prevHash ∧
        header.merkleRoot = t.merkleRoot ∧ header.time = t.time ∧
        header.bits = Compact.ofTarget t.target ∧ t.FirstGood nonces.toList header.nonce) ∧
    (∀ error, (t.mine nonces).value = .error error ↔
      error = .nonceExhausted ∧ ∀ nonce ∈ nonces.toList, ¬ t.Meets nonce) := by
  refine ⟨?found, ?first, fun error => value_mine_eq_error⟩
  case found =>
    cases hmined : (t.mine nonces).value with
    | error error =>
      have hnone := (value_mine_eq_error.mp hmined).2
      simpa using hnone
    | ok header =>
      obtain ⟨nonce, ⟨hgood, before, after, hoffered, -⟩, -⟩ :=
        value_mine_eq_ok_iff_firstGood.mp hmined
      have hsome : ∃ nonce ∈ nonces.toList, t.Meets nonce := by
        refine ⟨nonce, ?_, hgood⟩
        rw [hoffered]
        exact List.mem_append_right before List.mem_cons_self
      simpa using hsome
  case first =>
    intro header
    simp only [value_mine_eq_ok_iff_firstGood, eq_header_iff]
    constructor
    · intro h
      obtain ⟨nonce, hfirst, hversion, hprev, hroot, htime, hbits, rfl⟩ := h
      exact ⟨hversion, hprev, hroot, htime, hbits, hfirst⟩
    · intro h
      obtain ⟨hversion, hprev, hroot, htime, hbits, hfirst⟩ := h
      exact ⟨header.nonce, hfirst, hversion, hprev, hroot, htime, hbits, rfl⟩

end HeaderTemplate
end SpendCheck
