/-!
# Numerals

Unsigned numerals in the form that tokens carry them: an optional single plus
sign, then ASCII digits.  Leading zeros are read through, and a value past the
bound is no numeral at all, however many digits it takes to get there.
-/

namespace SpendCheck.Text

def digitsValue (digits : List Char) : Nat :=
  digits.foldl (fun n c => 10 * n + (c.toNat - 0x30)) 0

/-- At least one character, and ASCII digits only. -/
def isDigits (chars : List Char) : Bool := !chars.isEmpty && chars.all Char.isDigit

/-- Reads a numeral whose value is below `bound`. -/
def numeral? (bound : Nat) (chars : List Char) : Option Nat :=
  let digits := match chars with
    | '+' :: rest => rest
    | _ => chars
  if isDigits digits && digitsValue digits < bound then some (digitsValue digits) else none

end SpendCheck.Text
