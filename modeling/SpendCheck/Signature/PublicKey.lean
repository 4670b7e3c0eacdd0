import SpendCheck.Bytes.Basic
import SpendCheck.Curve.Secp256k1

/-!
# Public keys

A key is written as its abscissa and the parity of its ordinate (33 bytes), or as
both coordinates (65 bytes), where two of the three leading bytes state the parity
once more.
-/

namespace SpendCheck.PublicKey

open Secp256k1

/-- Coordinates at or above the prime are refused, not reduced. -/
def coordinate? (bytes : Bytes) : Option Field :=
  let n := Bytes.toNatBE bytes
  if h : n < fieldPrime then some ⟨n, h⟩ else none

def uncompressed? (body : Bytes) : Option Point := do
  let x ← coordinate? (body.take 32)
  let y ← coordinate? (body.drop 32)
  let p : Point := { x, y }
  if p.onCurve then some p else none

def parse? (data : Bytes) : Option Point :=
  match data, data.length with
  | lead :: body, 33 =>
    if lead = 0x02 ∨ lead = 0x03 then
      (coordinate? body).bind fun x => liftX? x (lead = 0x03)
    else none
  | lead :: body, 65 =>
    if lead = 0x04 then uncompressed? body
    else if lead = 0x06 ∨ lead = 0x07 then
      (uncompressed? body).filter fun p => (p.y.val % 2 == 1) == (lead == 0x07)
    else none
  | _, _ => none

end SpendCheck.PublicKey
