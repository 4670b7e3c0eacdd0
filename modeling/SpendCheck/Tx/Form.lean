import SpendCheck.Json.Codec
import SpendCheck.Tx.Basic

/-!
# JSON forms of transactions

Reading fills in what an explorer may leave out.  Writing spells out every field,
with `null` for what is not known.
-/

namespace SpendCheck

instance : JsonForm LockType where
  toJson type := .string type.name
  ofJson? json := json.string?.map LockType.ofName

/-- The members of an output, in the order in which an array gives them. -/
def Output.keys : List String :=
  ["scriptpubkey", "scriptpubkey_asm", "scriptpubkey_type", "scriptpubkey_address", "value"]

instance : JsonForm Output where
  toJson o := .object [
    ("scriptpubkey", toJson o.script),
    ("scriptpubkey_asm", toJson o.scriptAsm),
    ("scriptpubkey_type", toJson o.type),
    ("scriptpubkey_address", toJson o.address),
    ("value", toJson o.value)]
  ofJson? json := do
    let record ← json.record? Output.keys
    return {
      script := ← record.field? "scriptpubkey"
      scriptAsm := ← record.field? "scriptpubkey_asm"
      type := ← record.field? "scriptpubkey_type"
      address := ← record.fieldOr? "scriptpubkey_address" none
      value := ← record.field? "value" }

def Input.keys : List String :=
  ["txid", "vout", "prevout", "scriptsig", "scriptsig_asm", "witness", "is_coinbase", "sequence",
    "inner_redeemscript_asm", "inner_witnessscript_asm"]

instance : JsonForm Input where
  toJson i := .object [
    ("txid", toJson i.txid),
    ("vout", toJson i.vout),
    ("prevout", toJson i.prevout),
    ("scriptsig", toJson i.scriptSig),
    ("scriptsig_asm", toJson i.scriptSigAsm),
    ("witness", toJson i.witness),
    ("is_coinbase", toJson i.isCoinbase),
    ("sequence", toJson i.sequence),
    ("inner_redeemscript_asm", toJson i.redeemScriptAsm),
    ("inner_witnessscript_asm", toJson i.witnessScriptAsm)]
  ofJson? json := do
    let record ← json.record? Input.keys
    return {
      txid := ← record.field? "txid"
      vout := ← record.field? "vout"
      prevout := ← record.field? "prevout"
      scriptSig := ← record.fieldOr? "scriptsig" ""
      scriptSigAsm := ← record.fieldOr? "scriptsig_asm" ""
      witness := ← record.fieldOr? "witness" none
      isCoinbase := ← record.fieldOr? "is_coinbase" false
      sequence := ← record.field? "sequence"
      redeemScriptAsm := ← record.fieldOr? "inner_redeemscript_asm" none
      witnessScriptAsm := ← record.fieldOr? "inner_witnessscript_asm" none }

def Transaction.keys : List String := ["txid", "version", "locktime", "vin", "vout"]

instance : JsonForm Transaction where
  toJson tx := .object [
    ("txid", toJson tx.txid),
    ("version", toJson tx.version),
    ("locktime", toJson tx.lockTime),
    ("vin", toJson tx.inputs),
    ("vout", toJson tx.outputs)]
  ofJson? json := do
    let record ← json.record? Transaction.keys
    return {
      txid := ← record.fieldOr? "txid" none
      version := ← record.field? "version"
      lockTime := ← record.field? "locktime"
      inputs := ← record.field? "vin"
      outputs := ← record.field? "vout" }

end SpendCheck
