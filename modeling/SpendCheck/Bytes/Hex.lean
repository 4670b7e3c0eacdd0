import SpendCheck.Bytes.Basic

/-!
# Hexadecimal text

Two digits a byte, in either case, with no prefix and no blanks.  Reading works on
the UTF-8 bytes of the text, so that a byte outside ASCII is reported as the byte
it is.  Hashes are shown with their last byte first and are also read in that
order, which decides which of two bad digits is reported.
-/

namespace SpendCheck

inductive HexError where
  | invalidChar (byte : UInt8)
  | oddLength (length : Nat)
  | invalidLength (got expected : Nat)
deriving DecidableEq, Repr

namespace HexError

def message : HexError → String
  | .invalidChar byte => s!"invalid hex character {byte.toNat}"
  | .oddLength length => s!"odd hex string length {length}"
  | .invalidLength got expected => s!"bad hex string length {got} (expected {expected})"

end HexError

namespace Hex

/-- The UTF-8 bytes of a text. -/
def utf8 (text : String) : Bytes := text.toList.flatMap String.utf8EncodeChar

def digitValue? (c : UInt8) : Option UInt8 :=
  if 0x30 ≤ c ∧ c ≤ 0x39 then some (c - 0x30)
  else if 0x61 ≤ c ∧ c ≤ 0x66 then some (c - 0x57)
  else if 0x41 ≤ c ∧ c ≤ 0x46 then some (c - 0x37)
  else none

/-- The high digit is looked at first, so it is the one reported when both are
bad. -/
def decodePair (high low : UInt8) : Except HexError UInt8 :=
  match digitValue? high, digitValue? low with
  | none, _ => .error (.invalidChar high)
  | some _, none => .error (.invalidChar low)
  | some h, some l => .ok (16 * h + l)

/-- Decodes pairs from the left; the first bad pair is reported. -/
def decodePairs : Bytes → Except HexError Bytes
  | high :: low :: rest => do
    let byte ← decodePair high low
    let bytes ← decodePairs rest
    return byte :: bytes
  | _ => return []

/-- Decodes pairs from the right; the last bad pair is reported.  The bytes
still come out in the order of the text. -/
def decodePairsFromEnd : Bytes → Except HexError Bytes
  | high :: low :: rest => do
    let bytes ← decodePairsFromEnd rest
    let byte ← decodePair high low
    return byte :: bytes
  | _ => return []

def decode (text : String) : Except HexError Bytes :=
  let chars := utf8 text
  if chars.length % 2 = 1 then .error (.oddLength chars.length) else decodePairs chars

/-- Reads a hash by way of `decodeAll`.  An odd length is reported before a wrong
one, and a wrong one before any bad digit. -/
def decodeFixed (decodeAll : Bytes → Except HexError Bytes) (text : String) :
    Except HexError Hash256 :=
  let chars := utf8 text
  if chars.length % 2 = 1 then .error (.oddLength chars.length)
  else if chars.length = 64 then do
    let bytes ← decodeAll chars
    if h : bytes.length = 32 then
      return ⟨bytes.toArray, by simpa using h⟩
    else .error (.invalidLength (2 * bytes.length) 64)
  else .error (.invalidLength chars.length 64)

/-- Reads 32 bytes in the order of the text. -/
def decode32 (text : String) : Except HexError Hash256 :=
  decodeFixed decodePairs text

/-- Reads a hash in display order, where the last byte stands first. -/
def decodeHash (text : String) : Except HexError Hash256 :=
  (decodeFixed decodePairsFromEnd text).map Vector.reverse

/-- The byte of the digit that stands for a value below sixteen. -/
def digitByte (value : UInt8) : UInt8 := if value < 10 then 0x30 + value else 0x57 + value

def digit (value : UInt8) : Char := Char.ofNat (digitByte value).toNat

def encode (bytes : Bytes) : String :=
  String.ofList (bytes.flatMap fun b => [digit (b / 16), digit (b % 16)])

/-- Writes a hash in display order. -/
def encodeHash (hash : Hash256) : String := encode hash.toList.reverse

theorem forall_byte {p : UInt8 → Prop} (h : ∀ n : Fin 256, p (UInt8.ofFin n)) (b : UInt8) :
    p b := by
  simpa using h b.toFin

theorem utf8EncodeChar_digit (b : UInt8) :
    String.utf8EncodeChar (digit (b / 16)) = [digitByte (b / 16)] ∧
      String.utf8EncodeChar (digit (b % 16)) = [digitByte (b % 16)] := by
  revert b
  exact forall_byte (by decide +kernel)

theorem digitValue?_digitByte (b : UInt8) :
    digitValue? (digitByte (b / 16)) = some (b / 16) ∧
      digitValue? (digitByte (b % 16)) = some (b % 16) ∧ 16 * (b / 16) + b % 16 = b := by
  revert b
  exact forall_byte (by decide +kernel)

theorem decodePair_digitByte (b : UInt8) :
    decodePair (digitByte (b / 16)) (digitByte (b % 16)) = .ok b := by
  obtain ⟨high, low, sum⟩ := digitValue?_digitByte b
  simp only [decodePair, high, low, sum]

theorem utf8_encode (bytes : Bytes) :
    utf8 (encode bytes) = bytes.flatMap fun b => [digitByte (b / 16), digitByte (b % 16)] := by
  simp only [utf8, encode, String.toList_ofList, List.flatMap_assoc]
  congr 1
  funext b
  obtain ⟨high, low⟩ := utf8EncodeChar_digit b
  simp [high, low]

theorem length_utf8_encode (bytes : Bytes) : (utf8 (encode bytes)).length = 2 * bytes.length := by
  rw [utf8_encode]
  induction bytes with
  | nil => rfl
  | cons b rest ih =>
    simp only [List.flatMap_cons, List.length_append, ih, List.length_cons, List.length_nil]
    omega

theorem decodePairs_digitBytes (bytes : Bytes) :
    decodePairs (bytes.flatMap fun b => [digitByte (b / 16), digitByte (b % 16)]) = .ok bytes := by
  induction bytes with
  | nil => rfl
  | cons b rest ih =>
    simp only [List.flatMap_cons, List.cons_append, List.nil_append, decodePairs,
      decodePair_digitByte, ih]
    rfl

/-- What is written reads back. -/
theorem decode_encode (bytes : Bytes) : decode (encode bytes) = .ok bytes := by
  have length := length_utf8_encode bytes
  unfold decode
  rw [if_neg (by omega), utf8_encode, decodePairs_digitBytes]

end Hex
end SpendCheck
