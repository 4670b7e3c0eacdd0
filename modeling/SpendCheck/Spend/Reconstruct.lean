import SpendCheck.Script.Opcode
import SpendCheck.Script.Stack
import SpendCheck.Spend.Template

/-!
# The program of a spend

What has to be run to see whether an input may spend its output: the script put
together from the unlocking and the locking side, and the stack it starts from.
-/

namespace SpendCheck

structure Program where
  template : Template
  script : Asm
  stack : Stack
deriving DecidableEq, Repr

namespace Program

/-- Data items put on an empty stack in the order of the list. -/
def seed (items : List String) : Stack := Stack.ofBottomFirst (items.map StackValue.ofToken)

/-- The witness without its first item, which only multisignature checks ask for,
and its last, which is the witness script. -/
def innerItems (witness : List String) : List String := (witness.drop 1).dropLast

/-- The push of the redeem script moves behind the redeem script itself.  So the
body runs over the signatures, and what was pushed is then held against the hash
in the locking script. -/
def p2shScript (i : Input) : Except TemplateError Asm :=
  let unlocking := i.scriptSigTokens
  match unlocking.splitTail? 2, i.redeemScript? with
  | none, _ => .error (.shortScriptSig unlocking.length .p2sh)
  | some _, none => .error (.noInnerScript i.prevout.type)
  | some (pushes, redeemPush), some redeem =>
    .ok (pushes ++ redeem ++ redeemPush ++ i.prevout.tokens)

def p2shP2wshScript (i : Input) : Except TemplateError Asm :=
  match i.scriptSigTokens[1]?, i.witnessScript? with
  | none, _ => .error (.shortScriptSig i.scriptSigTokens.length .p2shP2wsh)
  | some _, none => .error (.noInnerScript i.prevout.type)
  | some program, some script => .ok (script ++ [program] ++ i.prevout.tokens)

def p2wshScript (i : Input) : Except TemplateError Asm :=
  match i.witnessScript? with
  | none => .error (.noInnerScript i.prevout.type)
  | some script =>
    .ok (script ++ [i.witnessItems.getLast?.getD "", Opcode.sha256.render] ++ i.prevout.tokens ++
      [Opcode.equal.render])

def p2wpkhScript (i : Input) : Except TemplateError Asm :=
  match i.prevout.tokens[2]? with
  | none => .error .noPubkeyHash
  | some keyHash =>
    .ok [Opcode.dup.render, Opcode.hash160.render, keyHash, Opcode.equalVerify.render,
      Opcode.checkSig.render]

def scriptOf (i : Input) : Template → Except TemplateError Asm
  | .p2pkh => .ok (i.scriptSigTokens ++ i.prevout.tokens)
  | .p2sh => p2shScript i
  | .p2shP2wpkh => .ok (Opcode.checkSig.render :: i.scriptSigTokens ++ i.prevout.tokens)
  | .p2shP2wsh => p2shP2wshScript i
  | .p2wsh => p2wshScript i
  | .p2wpkh => p2wpkhScript i
  | .taproot => .ok []

def stackOf (i : Input) : Template → Stack
  | .p2shP2wpkh => seed (i.witnessItems.take 2)
  | .p2wpkh => seed (i.witnessItems.take 2)
  | .p2shP2wsh => seed (innerItems i.witnessItems)
  | .p2wsh => seed (innerItems i.witnessItems)
  | _ => []

/-- The program that an input has to pass. -/
def ofInput (i : Input) : Except TemplateError Program := do
  let template ← Template.classify i
  let script ← scriptOf i template
  return { template, script, stack := stackOf i template }

end Program
end SpendCheck
