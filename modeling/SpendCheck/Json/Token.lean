import SpendCheck.Json.Basic
import SpendCheck.Text.Numeral

/-!
# JSON tokens

`Token.scan` cuts a text into JSON tokens.  It fails on a character no token
starts with, on an escape that names no Unicode scalar value, and on a number too
large for a double.
-/

namespace SpendCheck.Json

inductive Token where
  | openArray | closeArray | openObject | closeObject | comma | colon
  | scalar (value : Json)
deriving Repr, Inhabited

namespace Token

def isSpace (c : Char) : Bool := c = ' ' || c = '\t' || c = '\n' || c = '\r'

def hexValue? (c : Char) : Option Nat :=
  if '0' ≤ c ∧ c ≤ '9' then some (c.toNat - 0x30)
  else if 'a' ≤ c ∧ c ≤ 'f' then some (c.toNat - 0x57)
  else if 'A' ≤ c ∧ c ≤ 'F' then some (c.toNat - 0x37)
  else none

/-- The 16-bit unit named by four hex digits. -/
def unit? (a b c d : Char) : Option Nat := do
  let a ← hexValue? a
  let b ← hexValue? b
  let c ← hexValue? c
  let d ← hexValue? d
  return ((a * 16 + b) * 16 + c) * 16 + d

def simpleEscape? : Char → Option Char
  | '"' => some '"'
  | '\\' => some '\\'
  | '/' => some '/'
  | 'b' => some '\x08'
  | 'f' => some '\x0c'
  | 'n' => some '\n'
  | 'r' => some '\r'
  | 't' => some '\t'
  | _ => none

/-- The body of a string after its opening quote, and what follows the closing
one.  A high surrogate must be followed at once by an escaped low one. -/
def stringBody? : List Char → Option (List Char × List Char)
  | [] => none
  | '"' :: rest => some ([], rest)
  | '\\' :: 'u' :: a :: b :: c :: d :: rest => do
    let unit ← unit? a b c d
    if 0xdc00 ≤ unit ∧ unit ≤ 0xdfff then none
    else if 0xd800 ≤ unit ∧ unit ≤ 0xdbff then
      match rest with
      | '\\' :: 'u' :: e :: f :: g :: h :: tail => do
        let low ← unit? e f g h
        if 0xdc00 ≤ low ∧ low ≤ 0xdfff then
          let (chars, after) ← stringBody? tail
          return (Char.ofNat (0x10000 + (unit - 0xd800) * 0x400 + (low - 0xdc00)) :: chars, after)
        else none
      | _ => none
    else
      let (chars, after) ← stringBody? rest
      return (Char.ofNat unit :: chars, after)
  | '\\' :: c :: rest => do
    let c ← simpleEscape? c
    let (chars, after) ← stringBody? rest
    return (c :: chars, after)
  | c :: rest =>
    if c.toNat < 0x20 then none
    else do
      let (chars, after) ← stringBody? rest
      return (c :: chars, after)

/-- A number in its written parts. -/
structure Numeral where
  negative : Bool
  whole : List Char
  fraction : List Char
  exponent : Int
  isInteger : Bool

namespace Numeral

/-- Every finite double is below this, and a value from here on rounds to none. -/
def overflow : Nat := Nat.pow 2 1024 - Nat.pow 2 970

/-- Whether the value is too large for a double.  The place of the first digit
decides, except among values with as many digits as the bound itself. -/
def isTooLarge (n : Numeral) : Bool :=
  let digits := Text.digitsValue (n.whole ++ n.fraction)
  let scale : Int := n.exponent - n.fraction.length
  let places : Int := (toString digits).length + scale
  if digits = 0 then false
  else if places ≠ 309 then 309 < places
  else if 0 ≤ scale then overflow ≤ digits * Nat.pow 10 scale.toNat
  else overflow * Nat.pow 10 (-scale).toNat ≤ digits

/-- Minus zero is not an integer: it is the decimal that is written so. -/
def integer? (n : Numeral) : Option Int :=
  let magnitude := Text.digitsValue n.whole
  if !n.isInteger then none
  else if n.negative then
    if 0 < magnitude ∧ magnitude ≤ 0x8000000000000000 then some (-(magnitude : Int)) else none
  else if magnitude < 0x10000000000000000 then some magnitude else none

end Numeral

/-- The digits of a number before its fraction: no leading zero but in `0`. -/
def wholePart? (text : List Char) : Option (List Char × List Char) :=
  match text with
  | '0' :: rest => some (['0'], rest)
  | _ =>
    let digits := text.takeWhile Char.isDigit
    if digits.isEmpty then none else some (digits, text.dropWhile Char.isDigit)

/-- The digits after the point; none, and nothing consumed, where there is no
point. -/
def fractionPart? (text : List Char) : Option (List Char × List Char) :=
  match text with
  | '.' :: rest =>
    let digits := rest.takeWhile Char.isDigit
    if digits.isEmpty then none else some (digits, rest.dropWhile Char.isDigit)
  | _ => some ([], text)

/-- The exponent, if one is written. -/
def exponentPart? (text : List Char) : Option (Option Int × List Char) :=
  match text with
  | c :: rest =>
    if c = 'e' || c = 'E' then
      let (negative, rest) := match rest with
        | '-' :: tail => (true, tail)
        | '+' :: tail => (false, tail)
        | tail => (false, tail)
      let digits := rest.takeWhile Char.isDigit
      if digits.isEmpty then none
      else
        let value : Int := Text.digitsValue digits
        some (some (if negative then -value else value), rest.dropWhile Char.isDigit)
    else some (none, text)
  | [] => some (none, [])

def number? (text : List Char) : Option (Json × List Char) := do
  let (negative, unsigned) := match text with
    | '-' :: rest => (true, rest)
    | _ => (false, text)
  let (whole, afterWhole) ← wholePart? unsigned
  let (fraction, afterFraction) ← fractionPart? afterWhole
  let (exponent, rest) ← exponentPart? afterFraction
  let numeral : Numeral :=
    { negative, whole, fraction, exponent := exponent.getD 0,
      isInteger := fraction.isEmpty && exponent.isNone }
  match numeral.integer? with
  | some n => some (.integer n, rest)
  | none =>
    if numeral.isTooLarge then none
    else some (.decimal (String.ofList (text.take (text.length - rest.length))), rest)

/-- The first token of a text that starts with no space. -/
def next? (text : List Char) : Option (Token × List Char) :=
  match text with
  | '[' :: rest => some (.openArray, rest)
  | ']' :: rest => some (.closeArray, rest)
  | '\x7b' :: rest => some (.openObject, rest)
  | '\x7d' :: rest => some (.closeObject, rest)
  | ',' :: rest => some (.comma, rest)
  | ':' :: rest => some (.colon, rest)
  | '"' :: rest => (stringBody? rest).map fun (chars, after) =>
      (.scalar (.string (String.ofList chars)), after)
  | 'n' :: 'u' :: 'l' :: 'l' :: rest => some (.scalar .null, rest)
  | 't' :: 'r' :: 'u' :: 'e' :: rest => some (.scalar (.bool true), rest)
  | 'f' :: 'a' :: 'l' :: 's' :: 'e' :: rest => some (.scalar (.bool false), rest)
  | _ => (number? text).map fun (value, after) => (.scalar value, after)

/-- The tokens of a text.  Every token takes at least one character, so the
length of the text bounds their number. -/
def scanWithin : (fuel : Nat) → List Char → Option (List Token)
  | 0, text => if text.all isSpace then some [] else none
  | fuel + 1, text =>
    match text.dropWhile isSpace with
    | [] => some []
    | c :: rest => do
      let (token, after) ← next? (c :: rest)
      let tokens ← scanWithin fuel after
      return token :: tokens

def scan (text : List Char) : Option (List Token) := scanWithin text.length text

end Token
end SpendCheck.Json
