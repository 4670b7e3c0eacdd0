import SpendCheck.Block.Header
import SpendCheck.Proofs.Block.Compact
import SpendCheck.Proofs.Hash.Sha256

/-!
# Mined headers

Mining looks for a hash below the target of the template, and the header that it gives out
states that target in compact form only.  A hash that lies between the two is below the one
and not below the other, so what a header declares is kept up to the unit of its compact form,
and exactly where the target is a multiple of that unit.
-/

namespace SpendCheck

/-- The hash of a header as the number that targets bound. -/
def Header.hashValue (h : Header) : Nat := Bytes.toNatLE h.hash.toList

namespace HeaderTemplate

variable {t : HeaderTemplate} {nonces : Nonces} {header : Header}

theorem isBelowTarget_iff (hash : Hash256) :
    t.isBelowTarget hash = true ↔ Bytes.toNatLE hash.toList < Compact.value t.target := by
  have hlength : hash.toList.reverse.length = t.target.toList.length := by simp
  rw [isBelowTarget, decide_eq_true_iff, Bytes.lt_iff_toNatBE_lt hlength,
    Bytes.toNatBE_eq_toNatLE_reverse, List.reverse_reverse, Compact.value]

theorem isBelowTarget_header_iff (nonce : UInt32) :
    t.isBelowTarget (t.header nonce).hash = true ↔
      (t.header nonce).hashValue < Compact.value t.target :=
  isBelowTarget_iff _

/-- A mined header has the first nonce of those offered that brings its hash below the
target. -/
theorem value_mine_eq_ok : (t.mine nonces).value = .ok header ↔
    ∃ nonce, nonces.toList.find? (fun nonce => t.isBelowTarget (t.header nonce).hash) = some nonce ∧
      header = t.header nonce := by
  rw [mine, ← Nonces.find?_eq]
  cases nonces.find? fun nonce => t.isBelowTarget (t.header nonce).hash with
  | none => simp
  | some nonce =>
    show (.ok (t.header nonce) : Except BlockError Header) = .ok header ↔ _
    simp [eq_comm]

theorem exists_header_of_mine (h : (t.mine nonces).value = .ok header) :
    ∃ nonce, header = t.header nonce ∧ header.hashValue < Compact.value t.target := by
  obtain ⟨nonce, hfind, hheader⟩ := value_mine_eq_ok.mp h
  have hgood : t.isBelowTarget (t.header nonce).hash = true :=
    List.find?_some (p := fun nonce => t.isBelowTarget (t.header nonce).hash) hfind
  refine ⟨nonce, hheader, ?_⟩
  rw [hheader]
  exact (isBelowTarget_header_iff nonce).mp hgood

/-- A mined header meets the target of its template.  It declares that target rounded down to
a multiple of the unit, meets what it declares where nothing is rounded, and misses it by less
than the unit at the worst. -/
theorem mine_declared_terms (t : HeaderTemplate) (nonces : Nonces) (header : Header)
    (h : (t.mine nonces).value = .ok header) :
    let target := Compact.value t.target
    let declared := Compact.expand header.bits
    let unit := Compact.unit header.bits
    header.bits = Compact.ofTarget t.target ∧ header.hashValue < target ∧
      declared = target / unit * unit ∧
      (unit ∣ target → header.hashValue < declared) ∧
      (declared < header.hashValue → ¬ unit ∣ target ∧ header.hashValue < declared + unit) := by
  intro target declared unit
  obtain ⟨nonce, hheader, hbelow⟩ := exists_header_of_mine h
  have hbits : header.bits = Compact.ofTarget t.target := by rw [hheader]; rfl
  have hdeclared : declared = Compact.expand (Compact.ofTarget t.target) := by rw [← hbits]
  have hunit : unit = Compact.unit (Compact.ofTarget t.target) := by rw [← hbits]
  have hexact : unit ∣ target → declared = target := by
    rw [hdeclared, hunit]
    exact (Compact.expand_ofTarget_eq_iff t.target).mpr
  have hrounded : target < declared + unit := by
    rw [hdeclared, hunit]
    exact Compact.lt_expand_ofTarget_add_unit t.target
  refine ⟨hbits, hbelow, ?rounded, ?exact, ?missed⟩
  case rounded =>
    rw [hdeclared, hunit]
    exact Compact.expand_ofTarget t.target
  case exact =>
    intro hdvd
    rw [hexact hdvd]
    exact hbelow
  case missed =>
    intro hmissed
    refine ⟨?_, hbelow.trans hrounded⟩
    intro hdvd
    rw [hexact hdvd] at hmissed
    exact Nat.lt_asymm hmissed hbelow

theorem expand_defaultTarget :
    Compact.expand (Compact.ofTarget defaultTarget) = Compact.value defaultTarget := by decide

/-- Under the default target, which its compact form keeps whole, nothing can be missed. -/
theorem meets_declared_of_defaultTarget (htarget : t.target = defaultTarget)
    (h : (t.mine nonces).value = .ok header) : header.hashValue < Compact.expand header.bits := by
  obtain ⟨nonce, hheader, hbelow⟩ := exists_header_of_mine h
  have hbits : header.bits = Compact.ofTarget defaultTarget := by rw [hheader, ← htarget]; rfl
  rw [hbits, expand_defaultTarget, ← htarget]
  exact hbelow

/-- A template whose target has more bytes than its compact form keeps. -/
def fineTarget : HeaderTemplate where
  version := 2
  prevHash := .replicate 32 0
  merkleRoot := .replicate 32 0
  time := 0
  target := .replicate 32 0xff

theorem hash_fineTarget : (fineTarget.header 41186).hash.toList =
    [0xb1, 0xde, 0x90, 0x43, 0xb2, 0xc6, 0x1e, 0x7e, 0xef, 0xfd, 0xce, 0x9a, 0x45, 0xb7, 0xc3, 0xc6,
      0xb3, 0x16, 0xff, 0x1b, 0x5e, 0x71, 0xab, 0xec, 0xe4, 0x2b, 0xec, 0x33, 0x97, 0x3c, 0xff,
      0xff] := by
  rw [Header.hash, doubleSha256]
  simp only [Sha256.hash_eq_mix]
  decide +kernel

theorem mine_fineTarget :
    (fineTarget.mine (.among [41186])).value = .ok (fineTarget.header 41186) := by
  have hbelow : fineTarget.isBelowTarget (fineTarget.header 41186).hash = true := by
    rw [isBelowTarget, hash_fineTarget]
    decide +kernel
  exact value_mine_eq_ok.mpr ⟨41186, List.find?_cons_of_pos hbelow, rfl⟩

/-- The hash lies above the declared target, and less than the unit above it. -/
theorem mine_declared_terms_fineTarget :
    let header := fineTarget.header 41186
    Compact.expand header.bits < header.hashValue ∧
      header.hashValue < Compact.expand header.bits + 256 ^ 30 := by
  intro header
  have hmissed : Compact.expand header.bits < header.hashValue := by
    rw [Header.hashValue, hash_fineTarget]
    decide +kernel
  obtain ⟨-, -, -, -, hterms⟩ :=
    mine_declared_terms fineTarget (.among [41186]) header mine_fineTarget
  have hunit : Compact.unit header.bits = 256 ^ 30 := by decide +kernel
  exact ⟨hmissed, hunit ▸ (hterms hmissed).2⟩

/-- A mined header need not meet the target that it declares. -/
theorem not_mined_meets_declared :
    ¬ ∀ (t : HeaderTemplate) (nonces : Nonces) (header : Header),
      (t.mine nonces).value = .ok header → header.hashValue ≤ Compact.expand header.bits := by
  intro hmeets
  have hmet := hmeets fineTarget (.among [41186]) _ mine_fineTarget
  rw [Header.hashValue, hash_fineTarget] at hmet
  exact absurd hmet (by decide +kernel)

end HeaderTemplate
end SpendCheck
