import SpendCheck.Bytes.Basic
import SpendCheck.Curve.Secp256k1

/-!
# ECDSA signatures

A signature `(r, s)` over a digest is good for a public key when `r` is the
abscissa, taken modulo the order of the curve, of the point that the digest, `s`
and the key determine.  With `s` its negation signs alike, and only the smaller of
the two is ever good.
-/

namespace SpendCheck

structure Signature where
  r : Secp256k1.Scalar
  s : Secp256k1.Scalar
deriving DecidableEq, Repr

namespace Signature

/-- The null signature, which no key accepts. -/
def null : Signature := { r := 0, s := 0 }

def isHigh (sig : Signature) : Bool := Secp256k1.order / 2 < sig.s.val

/-- Of the two values of `s` that sign alike, the smaller one. -/
def lowS (sig : Signature) : Signature := if sig.isHigh then { sig with s := -sig.s } else sig

end Signature

namespace Ecdsa

open Secp256k1

def verify (digest : Hash256) (sig : Signature) (key : Point) : Bool :=
  if sig.r == 0 || sig.s == 0 || sig.isHigh then false
  else
    let message : Scalar := Fin.ofNat _ (Bytes.toNatBE digest.toList)
    let w := inverse sig.s
    let sum := Jacobian.combine (.ofPoint generator) (.ofPoint key) (message * w) (sig.r * w)
    match sum.affineX? with
    | none => false
    | some x => x.val % order == sig.r.val

end Ecdsa
end SpendCheck
