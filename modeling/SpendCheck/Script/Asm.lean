import SpendCheck.Json.Codec
import SpendCheck.Text.Blank

/-!
# Scripts as tokens

A script in token form is a list of mnemonics and hex data, read from left to
right.  In text its tokens stand between blanks.
-/

namespace SpendCheck

abbrev Asm := List String

namespace Asm

def parse (text : String) : Asm := Text.words text

def render (script : Asm) : String := Text.unwords script

/-- The script without its last `count` tokens, and those tokens; nothing where
it has fewer. -/
def splitTail? (script : Asm) (count : Nat) : Option (Asm × Asm) :=
  if count ≤ script.length then some (script.splitAt (script.length - count)) else none

theorem append_of_splitTail? {script head tail : Asm} {count : Nat}
    (h : script.splitTail? count = some (head, tail)) :
    head ++ tail = script ∧ tail.length = count := by
  unfold splitTail? at h
  split at h
  · obtain ⟨rfl, rfl⟩ : head = script.take (script.length - count) ∧
        tail = script.drop (script.length - count) := by
      simpa [List.splitAt_eq, eq_comm] using h
    exact ⟨List.take_append_drop _ _, by simp; omega⟩
  · simp at h

end Asm
end SpendCheck
