import SpendCheck.Hash.Basic

/-!
# Transactions in their wire form

Inputs, outputs and transactions as they are serialized, hashed and weighed.
-/

namespace SpendCheck

/-- The output that an input spends: the transaction it is in, and its place
there.  The id is kept in the order in which it is hashed. -/
structure OutPoint where
  txid : Hash256
  vout : UInt32
deriving DecidableEq

structure RawInput where
  outpoint : OutPoint
  scriptSig : Bytes
  sequence : UInt32
  witness : List Bytes
deriving DecidableEq

structure RawOutput where
  value : UInt64
  script : Bytes
deriving DecidableEq

structure RawTx where
  version : Int32
  lockTime : UInt32
  inputs : List RawInput
  outputs : List RawOutput
deriving DecidableEq

namespace OutPoint

def encode (o : OutPoint) : Bytes := o.txid.toList ++ Bytes.ofUInt32 o.vout

end OutPoint

namespace RawInput

def encode (i : RawInput) : Bytes :=
  i.outpoint.encode ++ Bytes.counted i.scriptSig ++ Bytes.ofUInt32 i.sequence

def encodeWitness (i : RawInput) : Bytes := Bytes.countedList Bytes.counted i.witness

end RawInput

namespace RawOutput

def encode (o : RawOutput) : Bytes := Bytes.ofUInt64 o.value ++ Bytes.counted o.script

end RawOutput

namespace RawTx

def hasWitness (tx : RawTx) : Bool := tx.inputs.any fun i => !i.witness.isEmpty

/-- The form that ids are taken of, which has no place for witnesses. -/
def encodeStripped (tx : RawTx) : Bytes :=
  Bytes.ofInt32 tx.version ++ Bytes.countedList RawInput.encode tx.inputs ++
    Bytes.countedList RawOutput.encode tx.outputs ++ Bytes.ofUInt32 tx.lockTime

/-- The form with a marker, a flag and the witnesses. -/
def encodeSegwit (tx : RawTx) : Bytes :=
  Bytes.ofInt32 tx.version ++ [0x00, 0x01] ++ Bytes.countedList RawInput.encode tx.inputs ++
    Bytes.countedList RawOutput.encode tx.outputs ++
    tx.inputs.flatMap RawInput.encodeWitness ++ Bytes.ofUInt32 tx.lockTime

/-- A transaction without inputs takes the longer form too: its empty input list
would be read as the marker. -/
def encode (tx : RawTx) : Bytes :=
  if tx.hasWitness || tx.inputs.isEmpty then tx.encodeSegwit else tx.encodeStripped

def txid (tx : RawTx) : Hash256 := doubleSha256 tx.encodeStripped

/-- Every byte counts four times, but the bytes that only witnesses bring count
once. -/
def weight (tx : RawTx) : Nat :=
  4 * tx.encodeStripped.length +
    if tx.hasWitness then 2 + (tx.inputs.flatMap RawInput.encodeWitness).length else 0

end RawTx
end SpendCheck
