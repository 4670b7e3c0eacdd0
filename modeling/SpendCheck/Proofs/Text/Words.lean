import Mathlib
import SpendCheck.Script.Asm

/-!
# Words and blanks

A word has characters and no blanks.  The words of a text are words in this sense, and a list of
words comes back from the text that they are joined to.  Any blank separates what stands in front
of it from what stands behind it, so that no text says more about its words than their order.
Scripts in token form are such lists, and their tail is split off token by token.
-/

namespace SpendCheck

namespace Text

/-- The code points with the property `White_Space`. -/
def whiteSpace : List Nat :=
  [0x9, 0xa, 0xb, 0xc, 0xd, 0x20, 0x85, 0xa0, 0x1680, 0x2000, 0x2001, 0x2002, 0x2003, 0x2004,
    0x2005, 0x2006, 0x2007, 0x2008, 0x2009, 0x200a, 0x2028, 0x2029, 0x202f, 0x205f, 0x3000]

theorem isBlank_iff {c : Char} : isBlank c = true ↔ c.toNat ∈ whiteSpace := by
  simp only [isBlank, whiteSpace, Bool.or_eq_true, Bool.and_eq_true, decide_eq_true_eq,
    List.mem_cons, List.not_mem_nil, or_false]
  generalize c.toNat = n
  omega

theorem isBlank_eq_false_iff {c : Char} : isBlank c = false ↔ c.toNat ∉ whiteSpace := by
  rw [← isBlank_iff, Bool.not_eq_true]

def IsWord (word : String) : Prop := word ≠ "" ∧ ∀ c ∈ word.toList, c.toNat ∉ whiteSpace

/-- No piece of a split has a character in it that was split at. -/
theorem of_mem_splitOnP {p : Char → Bool} {text piece : List Char}
    (h : piece ∈ text.splitOnP p) : ∀ c ∈ piece, p c = false := by
  induction text generalizing piece with
  | nil =>
    obtain rfl : piece = [] := by simpa using h
    exact fun c hc => absurd hc List.not_mem_nil
  | cons first rest ih =>
    by_cases hfirst : p first = true
    · obtain rfl | hrest : piece = [] ∨ piece ∈ rest.splitOnP p := by
        simpa [List.splitOnP_cons_eq_if_modifyHead, hfirst] using h
      · exact fun c hc => absurd hc List.not_mem_nil
      · exact ih hrest
    · -- The first character goes in front of the first piece of the rest.
      obtain ⟨next, more, hsplit⟩ := List.exists_cons_of_ne_nil (List.splitOnP_ne_nil p rest)
      obtain rfl | hmore : piece = first :: next ∨ piece ∈ more := by
        simpa [List.splitOnP_cons_eq_if_modifyHead, hfirst, hsplit] using h
      · have hnext : ∀ c ∈ next, p c = false := ih (hsplit ▸ List.mem_cons_self)
        exact List.forall_mem_cons.mpr ⟨by simpa using hfirst, hnext⟩
      · exact ih (hsplit ▸ List.mem_cons_of_mem next hmore)

theorem isWord_of_mem_words {text word : String} (h : word ∈ words text) : IsWord word := by
  obtain ⟨chars, hchars, rfl⟩ := List.mem_map.mp h
  obtain ⟨hpiece, hne⟩ := List.mem_filter.mp hchars
  constructor
  · simpa using hne
  · intro c hc
    rw [String.toList_ofList] at hc
    exact isBlank_eq_false_iff.mp (of_mem_splitOnP hpiece c hc)

theorem words_empty : words "" = [] := by
  simp [words, splitWords]

theorem words_of_isWord {word : String} (h : IsWord word) : words word = [word] := by
  obtain ⟨hne, hchars⟩ := h
  have hfull : word.toList.isEmpty = false := by simpa using hne
  have hkept : ∀ c ∈ word.toList, isBlank c = false :=
    fun c hc => isBlank_eq_false_iff.mpr (hchars c hc)
  rw [words, splitWords, List.splitOnP_eq_singleton hkept]
  simp [hfull]

/-- Any blank separates. -/
theorem words_append_blank {blank : Char} (h : blank.toNat ∈ whiteSpace) (before after : String) :
    words (before ++ String.singleton blank ++ after) = words before ++ words after := by
  have hchars : (before ++ String.singleton blank ++ after).toList =
      before.toList ++ blank :: after.toList := by simp
  rw [words, hchars, splitWords_append_cons (isBlank_iff.mpr h), List.map_append]
  rfl

/-- Words that are joined come apart again. -/
theorem words_unwords {list : List String} (h : ∀ word ∈ list, IsWord word) :
    words (unwords list) = list := by
  induction list with
  | nil => exact words_empty
  | cons word list ih =>
    obtain ⟨hword, hlist⟩ := List.forall_mem_cons.mp h
    cases list with
    | nil =>
      rw [unwords, String.intercalate_singleton]
      exact words_of_isWord hword
    | cons next more =>
      have hspace : ' '.toNat ∈ whiteSpace := by decide
      calc words (unwords (word :: next :: more))
          = words (word ++ String.singleton ' ' ++ unwords (next :: more)) := by
            rw [unwords, String.intercalate_cons_cons]
            rfl
        _ = words word ++ words (unwords (next :: more)) := words_append_blank hspace _ _
        _ = word :: next :: more := by rw [words_of_isWord hword, ih hlist, List.singleton_append]

end Text

namespace Asm

open Text

theorem splitTail?_eq_none {script : Asm} {count : Nat} :
    script.splitTail? count = none ↔ script.length < count := by
  simp [splitTail?]

theorem splitTail?_eq_some {script head tail : Asm} {count : Nat} :
    script.splitTail? count = some (head, tail) ↔ head ++ tail = script ∧ tail.length = count := by
  constructor
  · exact append_of_splitTail?
  · rintro ⟨rfl, rfl⟩
    simp [splitTail?]

/-- Reading a script and writing it are inverse but for the blanks, reading goes on from any
blank on, and a tail is split off where there are enough tokens. -/
theorem parse_render_laws :
    (∀ text, ∀ token ∈ parse text, IsWord token) ∧
    (∀ text, parse (render (parse text)) = parse text) ∧
    (∀ script : Asm, (∀ token ∈ script, IsWord token) → parse (render script) = script) ∧
    (∀ before after, ∀ blank : Char, blank.toNat ∈ whiteSpace →
      parse (before ++ String.singleton blank ++ after) = parse before ++ parse after) ∧
    ∀ (script : Asm) (count : Nat),
      (script.splitTail? count = none ↔ script.length < count) ∧
      ∀ head tail, script.splitTail? count = some (head, tail) ↔
        head ++ tail = script ∧ tail.length = count := by
  have hwords : ∀ text, ∀ token ∈ parse text, IsWord token := fun _ _ => isWord_of_mem_words
  refine ⟨hwords, fun text => words_unwords (hwords text), fun script => words_unwords,
    fun before after blank hblank => words_append_blank hblank before after, fun script count => ?_⟩
  exact ⟨splitTail?_eq_none, fun head tail => splitTail?_eq_some⟩

/-- Blanks of several kinds at both ends and in the middle, and the script that they leave. -/
theorem parse_render_laws_spaced :
    parse ("\u2003\tOP_PUSHBYTES_1" ++ String.singleton '\u0085' ++ "\r\n 51 ") =
      ["OP_PUSHBYTES_1", "51"] ∧
    parse (render ["OP_PUSHBYTES_1", "51"]) = ["OP_PUSHBYTES_1", "51"] ∧
    splitTail? ["OP_PUSHBYTES_1", "51"] 1 = some (["OP_PUSHBYTES_1"], ["51"]) ∧
    splitTail? ["OP_PUSHBYTES_1", "51"] 3 = none := by
  obtain ⟨-, -, hwritten, happend, hsplit⟩ := parse_render_laws
  have htokens : ∀ token ∈ ["OP_PUSHBYTES_1", "51"], IsWord token := by
    simp [IsWord, whiteSpace]
  have hfront : parse "\u2003\tOP_PUSHBYTES_1" = ["OP_PUSHBYTES_1"] := by decide
  have hback : parse "\r\n 51 " = ["51"] := by decide
  obtain ⟨-, hsome⟩ := hsplit ["OP_PUSHBYTES_1", "51"] 1
  obtain ⟨hnone, -⟩ := hsplit ["OP_PUSHBYTES_1", "51"] 3
  refine ⟨?_, hwritten _ htokens, (hsome _ _).mpr ⟨rfl, rfl⟩, hnone.mpr (by decide)⟩
  rw [happend _ _ _ (by decide), hfront, hback]
  rfl

end Asm
end SpendCheck
