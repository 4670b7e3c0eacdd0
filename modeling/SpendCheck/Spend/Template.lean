import SpendCheck.Json.Codec
import SpendCheck.Tx.Basic

/-!
# Spending templates

The way in which an input unlocks the output it spends, told from the type of the
output, the shape of the witness and the inner scripts that came with the input.
-/

namespace SpendCheck

inductive Template where
  | p2pkh
  | p2sh
  | p2shP2wpkh
  | p2shP2wsh
  | p2wsh
  | p2wpkh
  | taproot
deriving DecidableEq, Repr

inductive TemplateError where
  | unsupportedType (type : LockType)
  | timelocked (type : LockType)
  | witnessMismatch (type : LockType) (items : Nat)
  | noInnerScript (type : LockType)
  | shortScriptSig (tokens : Nat) (template : Template)
  | noPubkeyHash
deriving DecidableEq, Repr

namespace Template

def name : Template → String
  | p2pkh => "p2pkh"
  | p2sh => "p2sh"
  | p2shP2wpkh => "p2sh-p2wpkh"
  | p2shP2wsh => "p2sh-p2wsh"
  | p2wsh => "p2wsh"
  | p2wpkh => "p2wpkh"
  | taproot => "p2tr"

def all : List Template := [p2pkh, p2sh, p2shP2wpkh, p2shP2wsh, p2wsh, p2wpkh, taproot]

def ofName? (name : String) : Option Template := all.find? fun template => template.name = name

/-- Taproot is recognised and never evaluated. -/
def isVerifiable (template : Template) : Bool := template ≠ taproot

def csvToken : String := "OP_CSV"

def dropToken : String := "OP_DROP"

/-- An input that reveals a script is refused where the script is missing or waits
for a lock time. -/
def revealing (template : Template) (type : LockType) (waits : Asm → Bool) :
    Option Asm → Except TemplateError Template
  | none => .error (.noInnerScript type)
  | some script => if waits script then .error (.timelocked type) else .ok template

def classify (i : Input) : Except TemplateError Template :=
  let type := i.prevout.type
  match type, i.witness with
  | .p2pkh, _ => .ok p2pkh
  | .p2sh, none => revealing p2sh type (fun s => s.contains csvToken) i.redeemScript?
  | .p2sh, some [_, _] => .ok p2shP2wpkh
  | .p2sh, some (_ :: _ :: _ :: _) =>
    revealing p2shP2wsh type (fun s => s.contains csvToken || s.contains dropToken) i.witnessScript?
  | .v0P2wsh, some ("" :: _) => revealing p2wsh type (fun _ => false) i.witnessScript?
  | .v0P2wpkh, some (_ :: _ :: _) => .ok p2wpkh
  | .p2sh, witness => .error (.witnessMismatch type (witness.getD []).length)
  | .v0P2wsh, witness => .error (.witnessMismatch type (witness.getD []).length)
  | .v0P2wpkh, witness => .error (.witnessMismatch type (witness.getD []).length)
  | .v1P2tr, _ => .ok taproot
  | _, _ => .error (.unsupportedType type)

end Template

def TemplateError.message : TemplateError → String
  | .unsupportedType type => s!"spending `{type.name}` outputs is not supported"
  | .timelocked type =>
    s!"`{type.name}` output is locked with a script using OP_CSV or OP_DROP, which is not supported"
  | .witnessMismatch type items =>
    s!"`{type.name}` output is spent with a witness of {items} items, which does not match any known template"
  | .noInnerScript type =>
    s!"`{type.name}` output is spent without providing redeem or witness script"
  | .shortScriptSig tokens template =>
    s!"unlocking script of {tokens} tokens is too short for {template.name} spending"
  | .noPubkeyHash => "locking script has no public key hash"

instance : JsonForm Template where
  toJson template := .string template.name
  ofJson? json := json.name?.bind Template.ofName?

end SpendCheck
