import SpendCheck.Block.Compact
import SpendCheck.Block.Merkle
import SpendCheck.Trace.Event

/-!
# Block headers

A header template lacks only the nonce, and mining is the search for the first
nonce, among those offered, that brings the hash of the header below the target.
-/

namespace SpendCheck

structure Header where
  version : Int32
  prevHash : Hash256
  merkleRoot : Hash256
  time : UInt32
  bits : UInt32
  nonce : UInt32
deriving DecidableEq

namespace Header

def encode (h : Header) : Bytes :=
  Bytes.ofInt32 h.version ++ h.prevHash.toList ++ h.merkleRoot.toList ++
    Bytes.ofUInt32 h.time ++ Bytes.ofUInt32 h.bits ++ Bytes.ofUInt32 h.nonce

@[simp] theorem length_encode (h : Header) : h.encode.length = 80 := by
  simp [encode, Bytes.ofInt32, Bytes.ofUInt32]

def hash (h : Header) : Hash256 := doubleSha256 h.encode

end Header

inductive BlockError where
  | nonceExhausted
  | noTransactions
deriving DecidableEq, Repr

def BlockError.message : BlockError → String
  | .nonceExhausted => "no header with hash below the target exists within the nonce range"
  | .noTransactions => "block can't be built without transactions"

/-- The nonces that mining may try, in order. -/
inductive Nonces where
  | among (nonces : List UInt32)
  /-- All nonces from the first to the last; none where the last comes before the
  first. -/
  | span (first last : UInt32)
deriving DecidableEq, Repr

namespace Nonces

def all : Nonces := span 0 0xffffffff

def toList : Nonces → List UInt32
  | among nonces => nonces
  | span first last =>
    (List.range' first.toNat (last.toNat + 1 - first.toNat)).map UInt32.ofNat

/-- The first good nonce of `count` in a row. -/
def findFrom (good : UInt32 → Bool) (first : Nat) : (count : Nat) → Option UInt32
  | 0 => none
  | count + 1 =>
    if good (UInt32.ofNat first) then some (UInt32.ofNat first)
    else findFrom good (first + 1) count

/-- The first good nonce.  A span is searched without being listed. -/
def find? (good : UInt32 → Bool) : Nonces → Option UInt32
  | among nonces => nonces.find? good
  | span first last => findFrom good first.toNat (last.toNat + 1 - first.toNat)

theorem findFrom_eq (good : UInt32 → Bool) (first count : Nat) :
    findFrom good first count = ((List.range' first count).map UInt32.ofNat).find? good := by
  induction count generalizing first with
  | zero => rfl
  | succ count ih =>
    simp only [findFrom, List.range'_succ, List.map_cons, List.find?_cons, ih]
    cases good (UInt32.ofNat first) <;> rfl

theorem find?_eq (good : UInt32 → Bool) (nonces : Nonces) :
    nonces.find? good = nonces.toList.find? good := by
  cases nonces with
  | among => rfl
  | span first last => exact findFrom_eq good _ _

end Nonces

/-- A header before its proof of work, with a big-endian target. -/
structure HeaderTemplate where
  version : Int32
  prevHash : Hash256
  merkleRoot : Hash256
  time : UInt32
  target : Hash256
deriving DecidableEq

namespace HeaderTemplate

def defaultTarget : Hash256 := ((Vector.replicate 32 0).set 2 0xff).set 3 0xff

def defaultVersion : Int32 := 4

/-- The template of a block with the given transactions, which follows on no other
block. -/
def ofTxids (time : UInt32) (txids : List Hash256) : Except BlockError HeaderTemplate :=
  match Merkle.root? txids with
  | none => .error .noTransactions
  | some merkleRoot =>
    .ok { version := defaultVersion, prevHash := .replicate 32 0, merkleRoot, time,
          target := defaultTarget }

def bits (t : HeaderTemplate) : UInt32 := Compact.ofTarget t.target

def header (t : HeaderTemplate) (nonce : UInt32) : Header :=
  { version := t.version, prevHash := t.prevHash, merkleRoot := t.merkleRoot, time := t.time,
    bits := t.bits, nonce }

/-- Hashes are little-endian and targets big-endian; both are compared from their
most significant byte on. -/
def isBelowTarget (t : HeaderTemplate) (hash : Hash256) : Bool :=
  hash.toList.reverse < t.target.toList

/-- The header with the first nonce that brings its hash below the target. -/
def mine (t : HeaderTemplate) (nonces : Nonces := .all) :
    Traced Event (Except BlockError Header) :=
  match nonces.find? fun nonce => t.isBelowTarget (t.header nonce).hash with
  | none => return .error .nonceExhausted
  | some nonce => do
    Traced.note (.mined (t.header nonce).hash nonce)
    return .ok (t.header nonce)

end HeaderTemplate
end SpendCheck
