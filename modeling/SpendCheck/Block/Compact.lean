import SpendCheck.Bytes.Basic

/-!
# Compact targets

A target of 256 bits in 32: how many bytes it takes, and the first three of them.
The highest bit of those three is a sign and has to stay clear, which a target that
would set it pays for with a byte of its precision.
-/

namespace SpendCheck.Compact

/-- The bytes of a target without the zeros in front. -/
def significant (target : Hash256) : Bytes := target.toList.dropWhile (· == 0)

/-- The first three of some bytes as a number; missing ones count as zero. -/
def mantissa (bytes : Bytes) : Nat := Bytes.toNatBE ((bytes ++ [0, 0, 0]).take 3)

/-- The compact form of a big-endian target. -/
def ofTarget (target : Hash256) : UInt32 :=
  let bytes := significant target
  let m := mantissa bytes
  if m < 0x800000 then UInt32.ofNat (0x1000000 * bytes.length + m)
  else UInt32.ofNat (0x1000000 * (bytes.length + 1) + m / 256)

end SpendCheck.Compact
