import SpendCheck.Bytes.Hex
import SpendCheck.Script.Asm

/-!
# Transactions as explorers report them

Every input comes with the output it spends, and every script both in hex and in
token form.  Hex and tokens are kept as text and read where they are needed.
-/

namespace SpendCheck

/-- The type of a locking script.  A name outside this list is kept as it is. -/
inductive LockType where
  | p2pk
  | p2pkh
  | p2sh
  | v0P2wpkh
  | v0P2wsh
  | v1P2tr
  | opReturn
  | multisig
  | other (name : String)
deriving DecidableEq, Repr

namespace LockType

def name : LockType → String
  | p2pk => "p2pk"
  | p2pkh => "p2pkh"
  | p2sh => "p2sh"
  | v0P2wpkh => "v0_p2wpkh"
  | v0P2wsh => "v0_p2wsh"
  | v1P2tr => "v1_p2tr"
  | opReturn => "op_return"
  | multisig => "multisig"
  | other name => name

def known : List LockType :=
  [p2pk, p2pkh, p2sh, v0P2wpkh, v0P2wsh, v1P2tr, opReturn, multisig]

def ofName (name : String) : LockType :=
  (known.find? fun type => type.name = name).getD (other name)

end LockType

/-- An output, spent or created. -/
structure Output where
  /-- The locking script in hex. -/
  script : String
  /-- The locking script in tokens. -/
  scriptAsm : String
  type : LockType
  address : Option String
  value : UInt64
deriving DecidableEq, Repr

structure Input where
  /-- The transaction of the spent output, in display order. -/
  txid : String
  vout : UInt32
  prevout : Output
  /-- The unlocking script in hex. -/
  scriptSig : String
  /-- The unlocking script in tokens. -/
  scriptSigAsm : String
  /-- Hex items; an input may carry an empty list of them or no list at all. -/
  witness : Option (List String)
  isCoinbase : Bool
  sequence : UInt32
  redeemScriptAsm : Option String
  witnessScriptAsm : Option String
deriving DecidableEq, Repr

structure Transaction where
  /-- The id that the source reports, which need not be the computed one. -/
  txid : Option String
  version : Int32
  lockTime : UInt32
  inputs : List Input
  outputs : List Output
deriving DecidableEq

namespace Output

def tokens (o : Output) : Asm := Asm.parse o.scriptAsm

end Output

namespace Input

def hasWitness (i : Input) : Bool := i.witness.isSome

def witnessItems (i : Input) : List String := i.witness.getD []

def scriptSigTokens (i : Input) : Asm := Asm.parse i.scriptSigAsm

def redeemScript? (i : Input) : Option Asm := i.redeemScriptAsm.map Asm.parse

def witnessScript? (i : Input) : Option Asm := i.witnessScriptAsm.map Asm.parse

/-- The spent output as messages name it: the reported text, unchecked. -/
def outpointText (i : Input) : String := i.txid ++ ":" ++ toString i.vout.toNat

end Input

namespace Transaction

/-- The reported id, or nothing at all, where messages name the transaction. -/
def name (tx : Transaction) : String := tx.txid.getD ""

end Transaction
end SpendCheck
