import SpendCheck.Bytes.Hex
import SpendCheck.Json.Codec
import SpendCheck.Text.Numeral

/-!
# Stack values

What a script keeps on its stack: bytes, the outcome of a comparison or a
signature check, or a token that is neither an opcode nor hex.
-/

namespace SpendCheck

inductive StackValue where
  | bytes (data : Bytes)
  | bool (value : Bool)
  | literal (token : String)
deriving DecidableEq, Repr

namespace StackValue

def pushNumLead : String := "OP_PUSHNUM_"

/-- A token that reads as hex is the bytes it spells; any other stands for
itself. -/
def ofToken (token : String) : StackValue :=
  match Hex.decode token with
  | .ok data => bytes data
  | .error _ => literal token

def render : StackValue → String
  | bytes data => Hex.encode data
  | bool true => "true"
  | bool false => "false"
  | literal token => token

def bytes? : StackValue → Option Bytes
  | bytes data => some data
  | _ => none

/-- Only the outcome `true` is true; no data counts as it. -/
def isTrue : StackValue → Bool
  | bool value => value
  | _ => false

/-- The number that an `OP_PUSHNUM_` literal states, below `2 ^ 64`. -/
def pushNum? : StackValue → Option Nat
  | literal token =>
    (pushNumLead.toList.isPrefixOf? token.toList).bind (Text.numeral? 0x10000000000000000)
  | _ => none

end StackValue

instance : JsonForm StackValue where
  toJson
    | .bytes data => .object [("bytes", toJson data)]
    | .bool value => .object [("bool", .bool value)]
    | .literal token => .object [("literal", .string token)]
  ofJson?
    | .object [("bytes", data)] => (ofJson? data).map StackValue.bytes
    | .object [("bool", value)] => (ofJson? value).map StackValue.bool
    | .object [("literal", token)] => (ofJson? token).map StackValue.literal
    | _ => none

end SpendCheck
