/-!
# Blanks and words

A blank is a character with the Unicode property `White_Space`.  `words` cuts a
text at its blanks, and `unwords` joins words with single spaces.
-/

namespace SpendCheck.Text

/-- The characters with the property `White_Space`.  Zero-width characters such
as U+200B and U+FEFF do not have it, nor do the separators U+001C to U+001F. -/
def isBlank (c : Char) : Bool :=
  let n := c.toNat
  (0x9 ≤ n && n ≤ 0xd) || n = 0x20 || n = 0x85 || n = 0xa0 || n = 0x1680 ||
    (0x2000 ≤ n && n ≤ 0x200a) || n = 0x2028 || n = 0x2029 || n = 0x202f ||
    n = 0x205f || n = 0x3000

/-- The longest runs of characters that are not blank, in order. -/
def splitWords (text : List Char) : List (List Char) :=
  (text.splitOnP isBlank).filter fun word => !word.isEmpty

/-- A blank ends one word and belongs to none. -/
theorem splitWords_append_cons {c : Char} (h : isBlank c = true) (before after : List Char) :
    splitWords (before ++ c :: after) = splitWords before ++ splitWords after := by
  unfold splitWords
  rw [List.splitOnP_append_cons before after h, List.filter_append]

def words (text : String) : List String := (splitWords text.toList).map String.ofList

def unwords (words : List String) : String := String.intercalate " " words

end SpendCheck.Text
