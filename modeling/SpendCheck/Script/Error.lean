import SpendCheck.Script.Opcode
import SpendCheck.Script.StackValue
import SpendCheck.Signature.Context

/-!
# Script failures

Every failure but the last stops only the input it arises in.
-/

namespace SpendCheck

inductive ScriptError where
  | token (error : TokenError)
  | pushSizeMismatch (expected : UInt8) (actual : Nat)
  | missingPushData (opcode : Opcode)
  | nonHexPushData (token : String)
  /-- The value popped first stands first. -/
  | verifyFailed (first second : StackValue)
  | nonDataOperand (opcode : Opcode) (value : StackValue)
  | invalidPushNum (value : StackValue)
  | stepLimitExceeded (limit : Nat)
  | stackUnderflow
  | context (error : ContextError)
deriving DecidableEq, Repr

def ScriptError.message : ScriptError → String
  | .token error => s!"malformed script token: {error.message}"
  | .pushSizeMismatch expected actual =>
    s!"OP_PUSHBYTES_{expected.toNat} is followed by {actual} bytes of data"
  | .missingPushData opcode => s!"{opcode.render} is not followed by data to push"
  | .nonHexPushData data => s!"data `{data}` following a push opcode is not hex-encoded"
  | .verifyFailed first second =>
    s!"OP_EQUALVERIFY failed: `{first.render}` is not equal to `{second.render}`"
  | .nonDataOperand opcode value =>
    s!"{opcode.render} requires binary data operand, while `{value.render}` was found"
  | .invalidPushNum value =>
    s!"`{value.render}` is not a valid OP_CHECKMULTISIG key or signature count"
  | .stepLimitExceeded limit => s!"script execution exceeded limit of {limit} steps"
  | .stackUnderflow => "operation requires more items than the stack holds"
  | .context error => error.message

end SpendCheck
