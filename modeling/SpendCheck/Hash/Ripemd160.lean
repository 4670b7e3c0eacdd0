import SpendCheck.Bytes.Basic

/-!
# RIPEMD-160

Each block of 64 bytes is mixed by two lines of 80 steps that run side by side
over the same sixteen words, in orders of their own, and are added up crosswise
at the end.
-/

namespace SpendCheck.Ripemd160

structure Chain where
  (a b c d e : UInt32)
deriving DecidableEq

def initial : Chain where
  a := 0x67452301
  b := 0xefcdab89
  c := 0x98badcfe
  d := 0x10325476
  e := 0xc3d2e1f0

def rotateLeft (x n : UInt32) : UInt32 := (x <<< n) ||| (x >>> (32 - n))

/-- The five mixing functions, one for every sixteen steps of the left line. -/
def mix (group : Nat) (x y z : UInt32) : UInt32 :=
  match group with
  | 0 => x ^^^ y ^^^ z
  | 1 => (x &&& y) ||| (~~~x &&& z)
  | 2 => (x ||| ~~~y) ^^^ z
  | 3 => (x &&& z) ||| (y &&& ~~~z)
  | _ => x ^^^ (y ||| ~~~z)

def leftOrder : Vector (Fin 16) 80 :=
  #v[
    0, 1, 2, 3, 4, 5, 6, 7, 8, 9, 10, 11, 12, 13, 14, 15,
    7, 4, 13, 1, 10, 6, 15, 3, 12, 0, 9, 5, 2, 14, 11, 8,
    3, 10, 14, 4, 9, 15, 8, 1, 2, 7, 0, 6, 13, 11, 5, 12,
    1, 9, 11, 10, 0, 8, 12, 4, 13, 3, 7, 15, 14, 5, 6, 2,
    4, 0, 5, 9, 7, 12, 2, 10, 14, 1, 3, 8, 11, 6, 15, 13]

def rightOrder : Vector (Fin 16) 80 :=
  #v[
    5, 14, 7, 0, 9, 2, 11, 4, 13, 6, 15, 8, 1, 10, 3, 12,
    6, 11, 3, 7, 0, 13, 5, 10, 14, 15, 8, 12, 4, 9, 1, 2,
    15, 5, 1, 3, 7, 14, 6, 9, 11, 8, 12, 2, 10, 0, 4, 13,
    8, 6, 4, 1, 3, 11, 15, 0, 5, 12, 2, 13, 9, 7, 10, 14,
    12, 15, 10, 4, 1, 5, 8, 7, 6, 2, 13, 14, 0, 3, 9, 11]

def leftShifts : Vector UInt32 80 :=
  #v[
    11, 14, 15, 12, 5, 8, 7, 9, 11, 13, 14, 15, 6, 7, 9, 8,
    7, 6, 8, 13, 11, 9, 7, 15, 7, 12, 15, 9, 11, 7, 13, 12,
    11, 13, 6, 7, 14, 9, 13, 15, 14, 8, 13, 6, 5, 12, 7, 5,
    11, 12, 14, 15, 14, 15, 9, 8, 9, 14, 5, 6, 8, 6, 5, 12,
    9, 15, 5, 11, 6, 8, 13, 12, 5, 12, 13, 14, 11, 8, 5, 6]

def rightShifts : Vector UInt32 80 :=
  #v[
    8, 9, 9, 11, 13, 15, 15, 5, 7, 7, 8, 11, 14, 14, 12, 6,
    9, 13, 15, 7, 12, 8, 9, 11, 7, 7, 12, 7, 6, 15, 13, 11,
    9, 7, 15, 11, 8, 6, 6, 14, 12, 13, 5, 14, 13, 13, 7, 5,
    15, 5, 8, 11, 14, 14, 6, 14, 6, 9, 12, 9, 12, 5, 15, 8,
    8, 5, 12, 9, 12, 5, 14, 6, 8, 13, 6, 5, 15, 13, 11, 11]

def leftConstants : Vector UInt32 5 :=
  #v[0x00000000, 0x5a827999, 0x6ed9eba1, 0x8f1bbcdc, 0xa953fd4e]

def rightConstants : Vector UInt32 5 :=
  #v[0x50a28be6, 0x5c4dd124, 0x6d703ef3, 0x7a6d76e9, 0x00000000]

def step (s : Chain) (f word k shift : UInt32) : Chain :=
  { a := s.e, b := rotateLeft (s.a + f + word + k) shift + s.e, c := s.b,
    d := rotateLeft s.c 10, e := s.d }

def leftStep (block : Vector UInt32 16) (s : Chain) (i : Fin 80) : Chain :=
  have : i.val / 16 < 5 := by omega
  step s (mix (i.val / 16) s.b s.c s.d) block[leftOrder[i]] leftConstants[i.val / 16] leftShifts[i]

/-- The right line takes the mixing functions in the opposite order. -/
def rightStep (block : Vector UInt32 16) (s : Chain) (i : Fin 80) : Chain :=
  have : i.val / 16 < 5 := by omega
  step s (mix (4 - i.val / 16) s.b s.c s.d) block[rightOrder[i]] rightConstants[i.val / 16]
    rightShifts[i]

def compress (s : Chain) (block : Vector UInt32 16) : Chain :=
  let l := Fin.foldl 80 (leftStep block) s
  let r := Fin.foldl 80 (rightStep block) s
  { a := s.b + l.c + r.d, b := s.c + l.d + r.e, c := s.d + l.e + r.a,
    d := s.e + l.a + r.b, e := s.a + l.b + r.c }

/-- A one bit, zeros up to a whole number of blocks, and the length in bits as
the last eight bytes, least significant first. -/
def pad (message : Bytes) : Bytes :=
  message ++ 0x80 :: List.replicate ((119 - message.length % 64) % 64) 0 ++
    Bytes.ofNatLE 8 (8 * message.length)

/-- The four bytes from position `i` on, least significant first. -/
def littleWordAt (data : Array UInt8) (i : Nat) : UInt32 :=
  let byte (j : Nat) : UInt32 := (data.getD (i + j) 0).toUInt32
  byte 0 ||| (byte 1 <<< 8) ||| (byte 2 <<< 16) ||| (byte 3 <<< 24)

def blockAt (data : Array UInt8) (i : Nat) : Vector UInt32 16 :=
  .ofFn fun j => littleWordAt data (64 * i + 4 * j)

def Chain.bytes (s : Chain) : Bytes :=
  Bytes.ofUInt32 s.a ++ Bytes.ofUInt32 s.b ++ Bytes.ofUInt32 s.c ++ Bytes.ofUInt32 s.d ++
    Bytes.ofUInt32 s.e

def Chain.hash (s : Chain) : Hash160 := ⟨s.bytes.toArray, by simp [bytes, Bytes.ofUInt32]⟩

/-- Sealed, so that no proof starts to work out a digest by accident. -/
@[irreducible] def hash (message : Bytes) : Hash160 :=
  let data := (pad message).toArray
  let chain := Nat.fold (data.size / 64) (fun i _ s => compress s (blockAt data i)) initial
  chain.hash

end SpendCheck.Ripemd160
