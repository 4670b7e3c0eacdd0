/-!
# The curve secp256k1

Points of `y² = x³ + 7` over the prime field of `2²⁵⁶ - 2³² - 977` elements.  Sums
are worked out in Jacobian coordinates, where `(x, y, z)` stands for the point
`(x / z², y / z³)` and `z = 0` for the point at infinity, so that a multiple of a
point costs one inversion at its very end.
-/

namespace SpendCheck.Secp256k1

def fieldPrime : Nat := 0xfffffffffffffffffffffffffffffffffffffffffffffffffffffffefffffc2f

/-- The number of points on the curve, which is prime. -/
def order : Nat := 0xfffffffffffffffffffffffffffffffebaaedce6af48a03bbfd25e8cd0364141

/-- What numerals modulo `n` ask of `n`, with the zero spelled out that they ask it of. -/
abbrev Modulus (n : Nat) : Prop := @NeZero Nat Zero.ofOfNat0 n

instance : Modulus fieldPrime := ⟨by decide⟩

instance : Modulus order := ⟨by decide⟩

abbrev Field := Fin fieldPrime

abbrev Scalar := Fin order

/-- Square and multiply, from the lowest bit of the exponent up. -/
def power {n : Nat} [Modulus n] (base : Fin n) (exponent : Nat) : Fin n :=
  if _h : exponent = 0 then 1
  else
    let root := power (base * base) (exponent / 2)
    if exponent % 2 = 1 then base * root else root
termination_by exponent

/-- By Fermat's theorem, for a prime modulus; zero has no inverse and gives
zero. -/
def inverse {n : Nat} [Modulus n] (a : Fin n) : Fin n := power a (n - 2)

structure Point where
  x : Field
  y : Field
deriving DecidableEq, Repr

/-- The right-hand side of the curve equation. -/
def curve (x : Field) : Field := x * x * x + 7

def Point.onCurve (p : Point) : Bool := p.y * p.y == curve p.x

/-- The ordinate of the given parity, if there is a point with abscissa `x`.  The
prime is three more than a multiple of four, so that a square root is a power. -/
def liftX? (x : Field) (odd : Bool) : Option Point :=
  let root := power (curve x) ((fieldPrime + 1) / 4)
  let y := if (root.val % 2 == 1) == odd then root else -root
  let p : Point := { x, y }
  if p.onCurve then some p else none

def generator : Point where
  x := Fin.ofNat _ 0x79be667ef9dcbbac55a06295ce870b07029bfcdb2dce28d959f2815b16f81798
  y := Fin.ofNat _ 0x483ada7726a3c4655da4fbfc0e1108a8fd17b448a68554199c47d08ffb10d4b8

structure Jacobian where
  x : Field
  y : Field
  z : Field

namespace Jacobian

def infinity : Jacobian := { x := 1, y := 1, z := 0 }

def isInfinity (p : Jacobian) : Bool := p.z == 0

def ofPoint (p : Point) : Jacobian := { x := p.x, y := p.y, z := 1 }

def double (p : Jacobian) : Jacobian :=
  let yy := p.y * p.y
  let s := 4 * p.x * yy
  let m := 3 * (p.x * p.x)
  let x := m * m - 2 * s
  { x, y := m * (s - x) - 8 * (yy * yy), z := 2 * p.y * p.z }

def add (p q : Jacobian) : Jacobian :=
  if p.isInfinity then q
  else if q.isInfinity then p
  else
    let pzz := p.z * p.z
    let qzz := q.z * q.z
    let u := p.x * qzz
    let s := p.y * (q.z * qzz)
    let h := q.x * pzz - u
    let r := q.y * (p.z * pzz) - s
    if h == 0 then (if r == 0 then p.double else infinity)
    else
      let hh := h * h
      let hhh := h * hh
      let uhh := u * hh
      let x := r * r - hhh - 2 * uhh
      { x, y := r * (uhh - x) - s * hhh, z := h * p.z * q.z }

/-- The abscissa of a point; none at infinity. -/
def affineX? (p : Jacobian) : Option Field :=
  if p.isInfinity then none else
    let w := inverse p.z
    some (p.x * (w * w))

/-- Adds `m` times `p` and `n` times `q` onto `2 ^ bits` times `acc`, from the
highest of the low `bits` bits down.  Both multiples share the doublings. -/
def ladder (p q sum : Jacobian) (m n : Nat) : (bits : Nat) → (acc : Jacobian) → Jacobian
  | 0, acc => acc
  | bits + 1, acc =>
    let twice := acc.double
    let next := match m.testBit bits, n.testBit bits with
      | true, true => twice.add sum
      | true, false => twice.add p
      | false, true => twice.add q
      | false, false => twice
    ladder p q sum m n bits next

/-- The sum of `m` times `p` and `n` times `q`. -/
def combine (p q : Jacobian) (m n : Scalar) : Jacobian :=
  ladder p q (p.add q) m.val n.val 256 infinity

end Jacobian
end SpendCheck.Secp256k1
