import SpendCheck.Json.Codec
import SpendCheck.Text.Numeral

/-!
# Opcodes

The vocabulary is closed: a token that is no mnemonic is a literal and stands for
itself, be it data or an opcode outside the supported set.  Only a token that
starts like a push and states no length is refused.
-/

namespace SpendCheck

inductive Opcode where
  /-- Pushes an empty value, which takes no place on the stack. -/
  | zero
  | dup
  | hash160
  | sha256
  | equal
  | equalVerify
  /-- The next token is the data to push. -/
  | pushData1
  /-- The next token is the data to push, of exactly so many bytes. -/
  | pushBytes (length : UInt8)
  | checkSig
  | checkMultiSig
  | literal (token : String)
deriving DecidableEq, Repr

/-- A token that starts like a push and states no length in range. -/
inductive TokenError where
  | pushLength (token : String)
deriving DecidableEq, Repr

def TokenError.message : TokenError → String
  | .pushLength token => s!"token `{token}` does not specify a push length in 1..=75 range"

namespace Opcode

/-- The longest data with a push opcode of its own. -/
def maxPushBytes : Nat := 75

def pushBytesLead : String := "OP_PUSHBYTES_"

def render : Opcode → String
  | zero => "OP_0"
  | dup => "OP_DUP"
  | hash160 => "OP_HASH160"
  | sha256 => "OP_SHA256"
  | equal => "OP_EQUAL"
  | equalVerify => "OP_EQUALVERIFY"
  | pushData1 => "OP_PUSHDATA1"
  | pushBytes length => pushBytesLead ++ toString length.toNat
  | checkSig => "OP_CHECKSIG"
  | checkMultiSig => "OP_CHECKMULTISIG"
  | literal token => token

/-- The opcodes with one fixed spelling. -/
def mnemonics : List Opcode :=
  [zero, dup, hash160, sha256, equal, equalVerify, pushData1, checkSig, checkMultiSig]

/-- The length that a numeral behind the lead of a push states. -/
def pushLength? (numeral : List Char) : Option UInt8 :=
  ((Text.numeral? 256 numeral).filter fun n => 1 ≤ n && n ≤ maxPushBytes).map UInt8.ofNat

def parse (token : String) : Except TokenError Opcode :=
  match mnemonics.find? (fun op => op.render = token) with
  | some op => .ok op
  | none =>
    match pushBytesLead.toList.isPrefixOf? token.toList with
    | none => .ok (literal token)
    | some numeral =>
      match pushLength? numeral with
      | some length => .ok (pushBytes length)
      | none => .error (.pushLength token)

/-- Opcodes without an argument, under the names of their JSON forms. -/
def named : List (String × Opcode) :=
  [("Zero", zero), ("Dup", dup), ("Hash160", hash160), ("Sha256", sha256), ("Equal", equal),
    ("EqualVerify", equalVerify), ("PushData1", pushData1), ("CheckSig", checkSig),
    ("CheckMultiSig", checkMultiSig)]

end Opcode

instance : JsonForm Opcode where
  toJson
    | .pushBytes length => .object [("PushBytes", toJson length)]
    | .literal token => .object [("Literal", .string token)]
    | .zero => .string "Zero"
    | .dup => .string "Dup"
    | .hash160 => .string "Hash160"
    | .sha256 => .string "Sha256"
    | .equal => .string "Equal"
    | .equalVerify => .string "EqualVerify"
    | .pushData1 => .string "PushData1"
    | .checkSig => .string "CheckSig"
    | .checkMultiSig => .string "CheckMultiSig"
  ofJson?
    | .object [("PushBytes", length)] => (ofJson? length).map Opcode.pushBytes
    | .object [("Literal", token)] => (ofJson? token).map Opcode.literal
    | json => json.name?.bind fun name => Opcode.named.lookup name

end SpendCheck
