import SpendCheck.Proofs.Bytes.Hex
import SpendCheck.Proofs.Script.Grammar

/-!
# Reading the tokens of a script

Every mnemonic reads as its opcode, and hex never reads as one.
-/

namespace SpendCheck

namespace Hex

/-- No mnemonic is hex, since all of them start with the same letter, and it is no
digit. -/
theorem head_ne_of_decode {text : String} {data : Bytes} (h : decode text = .ok data) :
    text.toList.head? ≠ some 'O' := by
  intro hhead
  obtain ⟨-, hdigits⟩ := isHex_of_decode h
  exact absurd (hdigits 'O' (List.mem_of_head? hhead)) (by decide)

end Hex

namespace Opcode

theorem parse_zero : parse "OP_0" = .ok zero := rfl

theorem parse_dup : parse "OP_DUP" = .ok dup := rfl

theorem parse_hash160 : parse "OP_HASH160" = .ok hash160 := rfl

theorem parse_sha256 : parse "OP_SHA256" = .ok sha256 := rfl

theorem parse_equal : parse "OP_EQUAL" = .ok equal := rfl

theorem parse_equalVerify : parse "OP_EQUALVERIFY" = .ok equalVerify := rfl

theorem parse_pushData1 : parse "OP_PUSHDATA1" = .ok pushData1 := rfl

theorem parse_checkSig : parse "OP_CHECKSIG" = .ok checkSig := rfl

theorem parse_checkMultiSig : parse "OP_CHECKMULTISIG" = .ok checkMultiSig := rfl

/-- A token that reads as hex stands for itself. -/
theorem parse_of_decode {token : String} {data : Bytes} (h : Hex.decode token = .ok data) :
    parse token = .ok (literal token) := by
  have hhead := Hex.head_ne_of_decode h
  have hmnemonics : ∀ op ∈ mnemonics, op.render.toList.head? = some 'O' := by decide
  apply parse_eq_literal
  · intro op hop heq
    exact hhead (heq ▸ hmnemonics op hop)
  · intro hprefix
    obtain ⟨rest, hrest⟩ := hprefix
    exact hhead (by rw [← hrest]; rfl)

end Opcode
end SpendCheck
