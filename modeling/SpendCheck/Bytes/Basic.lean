/-!
# Byte strings

Byte strings and the fixed-width numbers written into them.  The widths that the
formats fix (32-byte hashes, 4-byte counters) are arguments or types here, so
that the length of a serialization is a matter of arithmetic.
-/

namespace SpendCheck

/-- A list rather than an array: scripts, digests and serializations are joined
and split far more often than they are indexed. -/
abbrev Bytes := List UInt8

/-- The 32 bytes of a hash, a transaction id or a target. -/
abbrev Hash256 := Vector UInt8 32

/-- The 20 bytes of a key hash or a script hash. -/
abbrev Hash160 := Vector UInt8 20

namespace Bytes

/-- The low `width` bytes of a number, least significant first. -/
def ofNatLE : (width : Nat) → Nat → Bytes
  | 0, _ => []
  | width + 1, n => UInt8.ofNat n :: ofNatLE width (n / 256)

@[simp] theorem length_ofNatLE (width n : Nat) : (ofNatLE width n).length = width := by
  induction width generalizing n with
  | zero => rfl
  | succ width ih => simp [ofNatLE, ih]

def toNatLE : Bytes → Nat
  | [] => 0
  | b :: rest => b.toNat + 256 * toNatLE rest

def toNatBE (bytes : Bytes) : Nat :=
  bytes.foldl (fun n b => 256 * n + b.toNat) 0

def ofUInt32 (n : UInt32) : Bytes := ofNatLE 4 n.toNat

def ofUInt64 (n : UInt64) : Bytes := ofNatLE 8 n.toNat

/-- Two's complement, least significant byte first. -/
def ofInt32 (n : Int32) : Bytes := ofUInt32 n.toUInt32

/-- A count takes one byte below 253; from there on a marker byte gives the
width of the number that follows it. -/
def ofCount (n : Nat) : Bytes :=
  if n < 0xfd then ofNatLE 1 n
  else if n < 0x10000 then 0xfd :: ofNatLE 2 n
  else if n < 0x100000000 then 0xfe :: ofNatLE 4 n
  else 0xff :: ofNatLE 8 n

/-- A byte string with its own length in front. -/
def counted (bytes : Bytes) : Bytes := ofCount bytes.length ++ bytes

/-- The number of items, then the items. -/
def countedList {α : Type} (encode : α → Bytes) (items : List α) : Bytes :=
  ofCount items.length ++ items.flatMap encode

end Bytes
end SpendCheck
