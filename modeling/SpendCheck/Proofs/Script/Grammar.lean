import SpendCheck.Proofs.Text.Numeral
import SpendCheck.Script.Opcode

/-!
# The grammar of tokens

A token is a mnemonic, a push that states its length, or anything else.  `Reads` has a rule for
each, with a second one for pushes whose numeral states no length in range, and `parse_eq_iff`
says that reading follows these rules and no others.  Whatever is read can be written and read
again, and it is written as it was read but for a numeral with a sign or with zeros in front.
-/

namespace SpendCheck.Opcode

variable {token name numeral : String} {op : Opcode}

/-- The mnemonics, each with the opcode that it stands for. -/
def vocabulary : List (String × Opcode) :=
  [("OP_0", zero), ("OP_DUP", dup), ("OP_HASH160", hash160), ("OP_SHA256", sha256),
    ("OP_EQUAL", equal), ("OP_EQUALVERIFY", equalVerify), ("OP_PUSHDATA1", pushData1),
    ("OP_CHECKSIG", checkSig), ("OP_CHECKMULTISIG", checkMultiSig)]

/-- The numeral behind the lead of a push states this length. -/
def StatesLength (numeral : String) (n : Nat) : Prop :=
  1 ≤ n ∧ n ≤ 75 ∧ Text.Denotes numeral.toList n

/-- What a token reads as. -/
inductive Reads : String → Except TokenError Opcode → Prop
  | mnemonic {name : String} {op : Opcode} (hname : (name, op) ∈ vocabulary) : Reads name (.ok op)
  | push {numeral : String} {length : UInt8} (hlength : StatesLength numeral length.toNat) :
    Reads ("OP_PUSHBYTES_" ++ numeral) (.ok (pushBytes length))
  | badPush {numeral : String} (hnone : ¬ ∃ n, StatesLength numeral n) :
    Reads ("OP_PUSHBYTES_" ++ numeral) (.error (.pushLength ("OP_PUSHBYTES_" ++ numeral)))
  | literal {token : String} (hmnemonic : ∀ op, (token, op) ∉ vocabulary)
    (hlead : ∀ numeral, token ≠ "OP_PUSHBYTES_" ++ numeral) : Reads token (.ok (literal token))

/-! ## Mnemonics -/

/-- The spellings that are tried are those of the vocabulary. -/
theorem mem_vocabulary_iff : (name, op) ∈ vocabulary ↔ op ∈ mnemonics ∧ op.render = name := by
  have hspelled : ∀ entry ∈ vocabulary, entry.2 ∈ mnemonics ∧ entry.2.render = entry.1 := by decide
  have hlisted : ∀ op ∈ mnemonics, (op.render, op) ∈ vocabulary := by decide
  constructor
  · exact hspelled (name, op)
  · rintro ⟨hop, rfl⟩
    exact hlisted op hop

theorem pushBytes_not_mem_vocabulary (n : UInt8) : (name, pushBytes n) ∉ vocabulary := by
  simp [vocabulary]

theorem literal_not_mem_vocabulary (text : String) : (name, literal text) ∉ vocabulary := by
  simp [vocabulary]

theorem parse_of_mem (hname : (name, op) ∈ vocabulary) : parse name = .ok op := by
  have hall : ∀ entry ∈ vocabulary, parse entry.1 = .ok entry.2 := by decide
  exact hall (name, op) hname

theorem ne_push_of_mem (hname : (name, op) ∈ vocabulary) : name ≠ "OP_PUSHBYTES_" ++ numeral := by
  have hall : ∀ entry ∈ vocabulary, ¬ "OP_PUSHBYTES_".toList <+: entry.1.toList := by decide
  rintro rfl
  apply hall _ hname
  rw [String.toList_append]
  exact List.prefix_append _ _

/-! ## Pushes -/

theorem pushLength?_eq_some_iff {length : UInt8} :
    pushLength? numeral.toList = some length ↔ StatesLength numeral length.toNat := by
  have hmax : maxPushBytes = 75 := rfl
  simp only [pushLength?, Option.map_eq_some_iff, Option.filter_eq_some_iff,
    Text.numeral?_eq_some_iff, Bool.and_eq_true, decide_eq_true_eq, StatesLength, hmax]
  constructor
  · intro h
    obtain ⟨n, ⟨⟨hbound, hdenotes⟩, hone, hmost⟩, rfl⟩ := h
    have hvalue : (UInt8.ofNat n).toNat = n := UInt8.toNat_ofNat_of_lt' hbound
    rw [hvalue]
    exact ⟨hone, hmost, hdenotes⟩
  · intro h
    obtain ⟨hone, hmost, hdenotes⟩ := h
    exact ⟨length.toNat, ⟨⟨length.toNat_lt, hdenotes⟩, hone, hmost⟩, UInt8.ofNat_toNat⟩

theorem pushLength?_eq_none_iff :
    pushLength? numeral.toList = none ↔ ¬ ∃ n, StatesLength numeral n := by
  constructor
  · intro hnone hlength
    obtain ⟨n, hone, hmost, hdenotes⟩ := hlength
    have hbound : n < UInt8.size := Nat.lt_of_le_of_lt hmost (by decide)
    have hvalue : (UInt8.ofNat n).toNat = n := UInt8.toNat_ofNat_of_lt' hbound
    have hsome : pushLength? numeral.toList = some (UInt8.ofNat n) := by
      rw [pushLength?_eq_some_iff, hvalue]
      exact ⟨hone, hmost, hdenotes⟩
    rw [hnone] at hsome
    cases hsome
  · intro hnone
    cases hlength : pushLength? numeral.toList with
    | none => rfl
    | some length => exact absurd ⟨_, pushLength?_eq_some_iff.mp hlength⟩ hnone

theorem parse_push : parse ("OP_PUSHBYTES_" ++ numeral) =
    match pushLength? numeral.toList with
    | some length => .ok (pushBytes length)
    | none => .error (.pushLength ("OP_PUSHBYTES_" ++ numeral)) := by
  have hfind : mnemonics.find? (fun op => op.render = "OP_PUSHBYTES_" ++ numeral) = none := by
    rw [List.find?_eq_none]
    intro op hop heq
    exact ne_push_of_mem (mem_vocabulary_iff.mpr ⟨hop, by simpa using heq⟩) rfl
  have hlead : "OP_PUSHBYTES_".toList.isPrefixOf? ("OP_PUSHBYTES_" ++ numeral).toList =
      some numeral.toList := by
    rw [String.toList_append, List.isPrefixOf?_eq_some_iff_append_eq]
  cases hlength : pushLength? numeral.toList with
  | none => simp only [parse, hfind, pushBytesLead, hlead, hlength]
  | some length => simp only [parse, hfind, pushBytesLead, hlead, hlength]

/-! ## All tokens -/

/-- A token that is no mnemonic and does not start like a push stands for itself. -/
theorem parse_eq_literal (hmnemonic : ∀ op ∈ mnemonics, op.render ≠ token)
    (hlead : ¬ "OP_PUSHBYTES_".toList <+: token.toList) : parse token = .ok (literal token) := by
  have hfind : mnemonics.find? (fun op => op.render = token) = none := by
    rw [List.find?_eq_none]
    intro op hop heq
    exact hmnemonic op hop (by simpa using heq)
  have hnone : "OP_PUSHBYTES_".toList.isPrefixOf? token.toList = none := by
    cases hrest : "OP_PUSHBYTES_".toList.isPrefixOf? token.toList with
    | none => rfl
    | some rest => exact absurd ⟨rest, List.isPrefixOf?_eq_some_iff_append_eq.mp hrest⟩ hlead
  unfold parse
  rw [hfind, pushBytesLead, hnone]

theorem lead_prefix_iff {lead : String} :
    lead.toList <+: token.toList ↔ ∃ numeral, token = lead ++ numeral := by
  constructor
  · intro h
    obtain ⟨rest, hrest⟩ := h
    refine ⟨String.ofList rest, ?_⟩
    rw [← String.toList_inj, String.toList_append, String.toList_ofList, hrest]
  · intro h
    obtain ⟨numeral, rfl⟩ := h
    rw [String.toList_append]
    exact List.prefix_append _ _

theorem reads_parse (token : String) : Reads token (parse token) := by
  by_cases hmnemonic : ∃ op, (token, op) ∈ vocabulary
  · obtain ⟨op, hname⟩ := hmnemonic
    rw [parse_of_mem hname]
    exact .mnemonic hname
  by_cases hlead : ∃ numeral, token = "OP_PUSHBYTES_" ++ numeral
  · obtain ⟨numeral, rfl⟩ := hlead
    rw [parse_push]
    cases hlength : pushLength? numeral.toList with
    | some length => exact .push (pushLength?_eq_some_iff.mp hlength)
    | none => exact .badPush (pushLength?_eq_none_iff.mp hlength)
  · have hother : ∀ op ∈ mnemonics, op.render ≠ token :=
      fun op hop heq => hmnemonic ⟨op, mem_vocabulary_iff.mpr ⟨hop, heq⟩⟩
    rw [parse_eq_literal hother (lead_prefix_iff.not.mpr hlead)]
    exact .literal (not_exists.mp hmnemonic) fun numeral heq => hlead ⟨numeral, heq⟩

/-- Reading follows the rules and no others. -/
theorem parse_eq_iff {result : Except TokenError Opcode} :
    parse token = result ↔ Reads token result := by
  constructor
  · rintro rfl
    exact reads_parse token
  · intro h
    cases h with
    | mnemonic hname => exact parse_of_mem hname
    | push hlength => rw [parse_push, pushLength?_eq_some_iff.mpr hlength]
    | badPush hnone => rw [parse_push, pushLength?_eq_none_iff.mpr hnone]
    | literal hmnemonic hlead =>
      apply parse_eq_literal
      · exact fun op hop heq => hmnemonic op (mem_vocabulary_iff.mpr ⟨hop, heq⟩)
      · rw [lead_prefix_iff]
        exact not_exists.mpr hlead

/-- Only its one spelling reads as an opcode that has one. -/
theorem eq_of_parse (hparse : parse token = .ok op) (hname : (name, op) ∈ vocabulary) :
    token = name := by
  cases parse_eq_iff.mp hparse with
  | mnemonic htoken =>
    rw [← (mem_vocabulary_iff.mp htoken).2, ← (mem_vocabulary_iff.mp hname).2]
  | push => exact absurd hname (pushBytes_not_mem_vocabulary _)
  | literal => exact absurd hname (literal_not_mem_vocabulary _)

theorem render_of_parse (hparse : parse token = .ok op) (hop : op ∈ mnemonics) :
    op.render = token :=
  (eq_of_parse hparse (mem_vocabulary_iff.mpr ⟨hop, rfl⟩)).symm

theorem toList_toString (n : Nat) : (toString n).toList = Nat.toDigits 10 n := Nat.toList_repr

/-- Every push opcode with a length in range reads back from its mnemonic. -/
theorem parse_pushBytes {n : UInt8} (hpos : 1 ≤ n) (hle : n ≤ 75) :
    parse (pushBytes n).render = .ok (pushBytes n) := by
  have hlength : StatesLength (toString n.toNat) n.toNat := by
    refine ⟨UInt8.le_iff_toNat_le.mp hpos, UInt8.le_iff_toNat_le.mp hle, ?_⟩
    rw [toList_toString]
    exact Text.denotes_toDigits n.toNat
  exact parse_eq_iff.mpr (.push hlength)

/-- The spelling of a push is the one that it is written in where its numeral is plain. -/
theorem render_pushBytes_eq_iff {n : UInt8} (hlength : StatesLength numeral n.toNat) :
    (pushBytes n).render = "OP_PUSHBYTES_" ++ numeral ↔ Text.Plain numeral.toList := by
  obtain ⟨hone, -, hdenotes⟩ := hlength
  rw [← hdenotes.toDigits_eq_iff hone, render, pushBytesLead, ← String.toList_inj,
    String.toList_append, String.toList_append, List.append_cancel_left_eq, toList_toString]

/-- What is read from a token can be written and read again. -/
theorem parse_render (hparse : parse token = .ok op) : parse op.render = .ok op := by
  cases parse_eq_iff.mp hparse with
  | mnemonic hname => rwa [(mem_vocabulary_iff.mp hname).2]
  | literal => exact hparse
  | push hlength =>
    exact parse_pushBytes (UInt8.le_iff_toNat_le.mpr hlength.1)
      (UInt8.le_iff_toNat_le.mpr hlength.2.1)

/-- Only a push with a numeral that is not plain is written in another way than it was read. -/
theorem render_eq_iff (hparse : parse token = .ok op) : op.render = token ↔
    ¬ ∃ numeral, token = "OP_PUSHBYTES_" ++ numeral ∧ ¬ Text.Plain numeral.toList := by
  cases parse_eq_iff.mp hparse with
  | mnemonic hname =>
    have hnone : ¬ ∃ numeral, token = "OP_PUSHBYTES_" ++ numeral ∧
        ¬ Text.Plain numeral.toList := by
      rintro ⟨numeral, heq, -⟩
      exact ne_push_of_mem hname heq
    simp [hnone, (mem_vocabulary_iff.mp hname).2]
  | literal hmnemonic hlead =>
    have hnone : ¬ ∃ numeral, token = "OP_PUSHBYTES_" ++ numeral ∧
        ¬ Text.Plain numeral.toList := by
      rintro ⟨numeral, heq, -⟩
      exact hlead numeral heq
    simp [hnone, render]
  | @push numeral length hlength =>
    rw [render_pushBytes_eq_iff hlength]
    constructor
    · rintro hplain ⟨other, heq, hother⟩
      obtain rfl : numeral = other := (String.append_right_inj "OP_PUSHBYTES_").mp heq
      exact hother hplain
    · intro hnone
      by_contra hplain
      exact hnone ⟨numeral, rfl, hplain⟩

/-- How every token reads, and in which spelling it is written again. -/
theorem parse_grammar (token : String) :
    (∀ error, parse token = .error error ↔ error = .pushLength token ∧
      ∃ numeral, token = "OP_PUSHBYTES_" ++ numeral ∧ ¬ ∃ n, StatesLength numeral n) ∧
    (∀ n, parse token = .ok (pushBytes n) ↔
      ∃ numeral, token = "OP_PUSHBYTES_" ++ numeral ∧ StatesLength numeral n.toNat) ∧
    (∀ name op, (name, op) ∈ vocabulary → (parse token = .ok op ↔ token = name)) ∧
    (∀ text, parse token = .ok (literal text) ↔ text = token ∧
      (∀ op, (token, op) ∉ vocabulary) ∧ ∀ numeral, token ≠ "OP_PUSHBYTES_" ++ numeral) ∧
    (∀ op, parse token = .ok op → parse op.render = .ok op ∧
      (op.render = token ↔
        ¬ ∃ numeral, token = "OP_PUSHBYTES_" ++ numeral ∧ ¬ Text.Plain numeral.toList)) := by
  refine ⟨?refused, ?push, ?mnemonic, ?literal, fun op hparse => ⟨parse_render hparse,
    render_eq_iff hparse⟩⟩
  case refused =>
    intro error
    rw [parse_eq_iff]
    constructor
    · intro h
      cases h with
      | badPush hnone => exact ⟨rfl, _, rfl, hnone⟩
    · rintro ⟨rfl, numeral, rfl, hnone⟩
      exact .badPush hnone
  case push =>
    intro n
    rw [parse_eq_iff]
    constructor
    · intro h
      cases h with
      | mnemonic hname => exact absurd hname (pushBytes_not_mem_vocabulary n)
      | push hlength => exact ⟨_, rfl, hlength⟩
    · rintro ⟨numeral, rfl, hlength⟩
      exact .push hlength
  case mnemonic =>
    intro name op hname
    constructor
    · intro hparse
      exact eq_of_parse hparse hname
    · rintro rfl
      exact parse_of_mem hname
  case literal =>
    intro text
    rw [parse_eq_iff]
    constructor
    · intro h
      cases h with
      | mnemonic hname => exact absurd hname (literal_not_mem_vocabulary text)
      | literal hmnemonic hlead => exact ⟨rfl, hmnemonic, hlead⟩
    · rintro ⟨rfl, hmnemonic, hlead⟩
      exact .literal hmnemonic hlead

/-- A sign and zeros do not change which push a token is, and the push is written without them. -/
theorem parse_grammar_padded :
    ("OP_DUP", dup) ∈ vocabulary ∧ parse "OP_DUP" = .ok dup ∧
    parse "OP_PUSHBYTES_+0075" = .ok (pushBytes 75) ∧
    parse (pushBytes 75).render = .ok (pushBytes 75) ∧
    (pushBytes 75).render ≠ "OP_PUSHBYTES_+0075" := by
  have hdup : ("OP_DUP", dup) ∈ vocabulary := by simp [vocabulary]
  have hparse : parse "OP_PUSHBYTES_+0075" = .ok (pushBytes 75) := rfl
  obtain ⟨-, -, hmnemonic, -, -⟩ := parse_grammar "OP_DUP"
  obtain ⟨-, -, -, -, hwritten⟩ := parse_grammar "OP_PUSHBYTES_+0075"
  obtain ⟨hagain, hspelling⟩ := hwritten (pushBytes 75) hparse
  refine ⟨hdup, (hmnemonic _ dup hdup).mpr rfl, hparse, hagain, ?_⟩
  intro heq
  apply hspelling.mp heq
  exact ⟨"+0075", rfl, fun hplain => hplain.1 rfl⟩

end SpendCheck.Opcode
