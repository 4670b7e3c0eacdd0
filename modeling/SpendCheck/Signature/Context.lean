import SpendCheck.Json.Codec
import SpendCheck.Tx.Data

/-!
# What a signature of an input commits to

Which of the two sets of digest rules an input falls under, and which script a
digest takes in the place of the unlocking one.
-/

namespace SpendCheck

/-- The digest rules from before witnesses, and those of BIP-143. -/
inductive Regime where
  | legacy
  | segwit
deriving DecidableEq, Repr

namespace Regime

def name : Regime → String
  | legacy => "legacy"
  | segwit => "segwit"

def ofName? : String → Option Regime
  | "legacy" => some legacy
  | "segwit" => some segwit
  | _ => none

/-- A witness decides for the newer rules, and be it empty. -/
def ofInput (i : Input) : Regime := if i.hasWitness then segwit else legacy

end Regime

instance : JsonForm Regime where
  toJson regime := .string regime.name
  ofJson? json := json.name?.bind Regime.ofName?

inductive ContextError where
  | unsupportedRegime (regime : Regime) (type : LockType)
  | noRedeemScript
  | noWitnessScript
  | txData (error : DataError)
deriving DecidableEq, Repr

def ContextError.message : ContextError → String
  | .unsupportedRegime regime type =>
    s!"`{type.name}` outputs can't be spent under {regime.name} signature rules"
  | .noRedeemScript => "unlocking script does not contain redeem script"
  | .noWitnessScript => "segwit v0 script hash spending has no witness script"
  | .txData error => error.message

structure Context where
  regime : Regime
  inputIndex : Nat
  /-- The script that the digest takes in the place of the unlocking script. -/
  scriptCode : Bytes
  /-- The value of the spent output. -/
  value : UInt64
deriving DecidableEq, Repr

namespace Context

/-- A script of 22 bytes that pushes version 0 and a key hash. -/
def isKeyHashProgram (script : Bytes) : Bool :=
  script.length = 22 && script.take 2 = [0x00, 0x14]

/-- A script of 34 bytes that pushes version 0 and a script hash. -/
def isScriptHashProgram (script : Bytes) : Bool :=
  script.length = 34 && script.take 2 = [0x00, 0x20]

/-- The script that pays to a key hash: duplicate, hash, compare, check. -/
def payToKeyHash (keyHash : Bytes) : Bytes :=
  [0x76, 0xa9, 0x14] ++ keyHash ++ [0x88, 0xac]

/-- The script named by the unlocking data.  Spending a script hash names it in
the last token of the unlocking script; spending a key hash names the locking
script itself. -/
def substitute (i : Input) : Except ContextError Bytes :=
  match Regime.ofInput i, i.prevout.type with
  | _, .p2sh =>
    match i.scriptSigTokens.getLast? with
    | none => .error .noRedeemScript
    | some redeem => (decodeData redeem).mapError .txData
  | .segwit, .v0P2wpkh => i.prevout.scriptBytes.mapError .txData
  | .legacy, .p2pkh => i.prevout.scriptBytes.mapError .txData
  | regime, type => .error (.unsupportedRegime regime type)

/-- Under BIP-143 a key hash program stands for the script that pays to the key
hash, and a script hash program for the script at the end of the witness. -/
def scriptCodeOf (i : Input) (substitute : Bytes) : Except ContextError Bytes :=
  match Regime.ofInput i with
  | .legacy => .ok substitute
  | .segwit =>
    if isKeyHashProgram substitute then .ok (payToKeyHash (substitute.drop 2))
    else if isScriptHashProgram substitute then
      match i.witnessItems.getLast? with
      | none => .error .noWitnessScript
      | some script => (decodeData script).mapError .txData
    else .ok substitute

def ofInput (tx : Transaction) (index : Nat) : Except ContextError Context := do
  let i ← (tx.input index).mapError .txData
  let script ← substitute i
  let scriptCode ← scriptCodeOf i script
  return { regime := Regime.ofInput i, inputIndex := index, scriptCode, value := i.prevout.value }

end Context
end SpendCheck
