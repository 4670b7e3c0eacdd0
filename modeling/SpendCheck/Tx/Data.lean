import SpendCheck.Tx.Basic
import SpendCheck.Tx.Raw

/-!
# From reported to wire form

Hex is decoded when a transaction is put into its wire form: of each input the
witness, the unlocking script and the id, then the outputs' scripts.  The first
fault in that order is the one reported.  The skeleton is the wire form with the
unlocking data of every input left out; signatures are taken over it.
-/

namespace SpendCheck

inductive DataError where
  | hex (error : HexError)
  | noInput (index : Nat)
deriving DecidableEq, Repr

def DataError.message : DataError → String
  | .hex error => s!"invalid hex-encoded transaction data: {error.message}"
  | .noInput index => s!"transaction input #{index} is absent"

/-- Decodes a script or a witness item. -/
def decodeData (text : String) : Except DataError Bytes :=
  (Hex.decode text).mapError .hex

namespace Output

def scriptBytes (o : Output) : Except DataError Bytes := decodeData o.script

def toRaw (o : Output) : Except DataError RawOutput := do
  let script ← o.scriptBytes
  return { value := o.value, script }

end Output

namespace Input

def outpoint (i : Input) : Except DataError OutPoint := do
  let txid ← (Hex.decodeHash i.txid).mapError .hex
  return { txid, vout := i.vout }

def toRaw (i : Input) : Except DataError RawInput := do
  let witness ← i.witnessItems.mapM decodeData
  let scriptSig ← decodeData i.scriptSig
  let outpoint ← i.outpoint
  return { outpoint, scriptSig, sequence := i.sequence, witness }

/-- The input without its unlocking script and witness, neither of which is
looked at. -/
def toBare (i : Input) : Except DataError RawInput := do
  let outpoint ← i.outpoint
  return { outpoint, scriptSig := [], sequence := i.sequence, witness := [] }

end Input

namespace Transaction

def input (tx : Transaction) (index : Nat) : Except DataError Input :=
  match tx.inputs[index]? with
  | some i => .ok i
  | none => .error (.noInput index)

def convert (toInput : Input → Except DataError RawInput) (tx : Transaction) :
    Except DataError RawTx := do
  let inputs ← tx.inputs.mapM toInput
  let outputs ← tx.outputs.mapM Output.toRaw
  return { version := tx.version, lockTime := tx.lockTime, inputs, outputs }

def toRaw (tx : Transaction) : Except DataError RawTx := tx.convert Input.toRaw

def skeleton (tx : Transaction) : Except DataError RawTx := tx.convert Input.toBare

def weight (tx : Transaction) : Except DataError Nat := tx.toRaw.map RawTx.weight

def computedTxid (tx : Transaction) : Except DataError Hash256 := tx.toRaw.map RawTx.txid

/-- The sum of some values, if it fits 64 bits. -/
def total? (values : List UInt64) : Option Nat :=
  let sum := values.foldr (fun value sum => value.toNat + sum) 0
  if sum < 0x10000000000000000 then some sum else none

/-- What is spent and not created again; none where more is created than spent. -/
def fee? (tx : Transaction) : Option Nat := do
  let spent ← total? (tx.inputs.map fun i => i.prevout.value)
  let created ← total? (tx.outputs.map fun o => o.value)
  if created ≤ spent then some (spent - created) else none

end Transaction
end SpendCheck
