import SpendCheck.Curve.Ecdsa

/-!
# Signatures in DER

A lenient reading of the DER form of a signature: a sequence of two integers whose
lengths may be spelled in more bytes than they need, whose sequence length is not
looked at, and after which anything may follow.  The integers are unsigned.
-/

namespace SpendCheck.Signature

/-- Passes over the length of the sequence. -/
def skipLength? : Bytes → Option Bytes
  | [] => none
  | b :: rest =>
    if b < 0x80 then some rest
    else
      let width := (b - 0x80).toNat
      if width ≤ rest.length then some (rest.drop width) else none

/-- A length is one byte below 128, or a count of the bytes that spell it. -/
def readLength? : Bytes → Option (Nat × Bytes)
  | [] => none
  | b :: rest =>
    if b < 0x80 then some (b.toNat, rest)
    else
      let width := (b - 0x80).toNat
      let digits := (rest.take width).dropWhile (· == 0)
      if rest.length < width || 8 ≤ digits.length then none
      else some (Bytes.toNatBE digits, rest.drop width)

def readInteger? : Bytes → Option (Nat × Bytes)
  | 0x02 :: rest => do
    let (length, body) ← readLength? rest
    if body.length < length then none
    else some (Bytes.toNatBE (body.take length), body.drop length)
  | _ => none

/-- The null signature stands for one whose integers are no scalars. -/
def ofDer? : Bytes → Option Signature
  | 0x30 :: rest => do
    let body ← skipLength? rest
    let (r, afterR) ← readInteger? body
    let (s, _) ← readInteger? afterR
    if h : r < Secp256k1.order ∧ s < Secp256k1.order then some { r := ⟨r, h.1⟩, s := ⟨s, h.2⟩ }
    else some null
  | _ => none

/-- Splits off the last byte, which names what the signature commits to, and
reads the rest. -/
def parse? (data : Bytes) : Option (Signature × UInt8) := do
  let kind ← data.getLast?
  let sig ← ofDer? data.dropLast
  return (sig.lowS, kind)

end SpendCheck.Signature
