import SpendCheck.Signature.Context

/-!
# Signature digests

The digest that a signature is taken over, under either set of rules.  The last
byte of a signature says which parts of the transaction it commits to.  The older
rules append that byte as it is; BIP-143 appends its normal form.
-/

namespace SpendCheck

/-- Which outputs a signature commits to. -/
inductive OutputScope where
  | all
  | none
  | single
deriving DecidableEq, Repr

/-- What a signature commits to: some outputs, and all inputs or its own only. -/
structure Scope where
  outputs : OutputScope
  ownInputOnly : Bool
deriving DecidableEq, Repr

namespace Scope

/-- Bits outside `0x9f` carry no meaning, and an unknown kind of outputs means all
of them. -/
def ofByte (b : UInt8) : Scope where
  outputs :=
    let kind := b &&& 0x1f
    if kind = 0x02 then .none else if kind = 0x03 then .single else .all
  ownInputOnly := b &&& 0x80 ≠ 0

/-- The normal form of the byte. -/
def toByte (scope : Scope) : UInt8 :=
  (match scope.outputs with
    | .all => 0x01
    | .none => 0x02
    | .single => 0x03) + if scope.ownInputOnly then 0x80 else 0x00

end Scope

/-- The hashes that all BIP-143 digests of one transaction have in common. -/
structure Commitments where
  prevouts : Hash256
  sequences : Hash256
  outputs : Hash256
deriving DecidableEq

def RawTx.commitments (tx : RawTx) : Commitments where
  prevouts := doubleSha256 (tx.inputs.flatMap fun i => i.outpoint.encode)
  sequences := doubleSha256 (tx.inputs.flatMap fun i => Bytes.ofUInt32 i.sequence)
  outputs := doubleSha256 (tx.outputs.flatMap RawOutput.encode)

/-- There is no input at the index that a digest is asked for. -/
structure NoSuchInput where
  index : Nat
  count : Nat
deriving DecidableEq, Repr

def NoSuchInput.message (e : NoSuchInput) : String :=
  s!"Requested index ({e.index}) is greater or equal than the number of transaction inputs ({e.count})"

namespace Digest

def zero : Hash256 := .replicate 32 0

/-- The number one, least significant byte first.  It is the older rules' digest
of a signature whose own output does not exist. -/
def one : Hash256 := zero.set 0 1

namespace Legacy

/-- The inputs of the transaction that is hashed: all carry an empty unlocking
script but the signed one, which carries the script code. -/
def inputs (tx : RawTx) (index : Nat) (signed : RawInput) (scriptCode : Bytes) (scope : Scope) :
    List RawInput :=
  let own := { signed with scriptSig := scriptCode, witness := [] }
  if scope.ownInputOnly then [own]
  else tx.inputs.mapIdx fun n i =>
    if n = index then own
    else
      let sequence := if scope.outputs = .all then i.sequence else 0
      { i with scriptSig := [], sequence, witness := [] }

/-- An output that commits to nothing. -/
def blank : RawOutput := { value := 0xffffffffffffffff, script := [] }

def outputs (tx : RawTx) (index : Nat) (scope : Scope) : List RawOutput :=
  match scope.outputs with
  | .all => tx.outputs
  | .none => []
  | .single => (tx.outputs.take (index + 1)).mapIdx fun n o => if n = index then o else blank

def preimage (tx : RawTx) (index : Nat) (signed : RawInput) (scriptCode : Bytes) (kind : UInt8) :
    Bytes :=
  let scope := Scope.ofByte kind
  let hashed : RawTx :=
    { tx with
      inputs := inputs tx index signed scriptCode scope
      outputs := outputs tx index scope }
  hashed.encode ++ Bytes.ofNatLE 4 kind.toNat

end Legacy

def legacy (tx : RawTx) (index : Nat) (scriptCode : Bytes) (kind : UInt8) :
    Except NoSuchInput Hash256 :=
  match tx.inputs[index]? with
  | none => .error { index, count := tx.inputs.length }
  | some signed =>
    if Scope.ofByte kind = { outputs := .single, ownInputOnly := false } ∧
        tx.outputs.length ≤ index then .ok one
    else .ok (doubleSha256 (Legacy.preimage tx index signed scriptCode kind))

namespace Segwit

/-- The hash of the outputs committed to, which is zero where there are none. -/
def outputsHash (tx : RawTx) (shared : Commitments) (index : Nat) : OutputScope → Hash256
  | .all => shared.outputs
  | .none => zero
  | .single =>
    match tx.outputs[index]? with
    | some output => doubleSha256 output.encode
    | none => zero

def preimage (tx : RawTx) (shared : Commitments) (index : Nat) (signed : RawInput)
    (scriptCode : Bytes) (value : UInt64) (scope : Scope) : Bytes :=
  let prevouts := if scope.ownInputOnly then zero else shared.prevouts
  let sequences :=
    if scope.ownInputOnly || scope.outputs ≠ .all then zero else shared.sequences
  Bytes.ofInt32 tx.version ++ prevouts.toList ++ sequences.toList ++
    signed.outpoint.encode ++ Bytes.counted scriptCode ++ Bytes.ofUInt64 value ++
    Bytes.ofUInt32 signed.sequence ++ (outputsHash tx shared index scope.outputs).toList ++
    Bytes.ofUInt32 tx.lockTime ++ Bytes.ofNatLE 4 scope.toByte.toNat

end Segwit

def segwit (tx : RawTx) (shared : Commitments) (index : Nat) (scriptCode : Bytes)
    (value : UInt64) (kind : UInt8) : Except NoSuchInput Hash256 :=
  match tx.inputs[index]? with
  | none => .error { index, count := tx.inputs.length }
  | some signed =>
    .ok (doubleSha256
      (Segwit.preimage tx shared index signed scriptCode value (Scope.ofByte kind)))

/-- The digest that a signature of the given kind is taken over in a context. -/
def ofContext (tx : RawTx) (context : Context) (kind : UInt8) : Except NoSuchInput Hash256 :=
  match context.regime with
  | .legacy => legacy tx context.inputIndex context.scriptCode kind
  | .segwit =>
    segwit tx tx.commitments context.inputIndex context.scriptCode context.value kind

end Digest
end SpendCheck
