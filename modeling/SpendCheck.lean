import SpendCheck.Block.Compact
import SpendCheck.Block.Header
import SpendCheck.Block.Merkle
import SpendCheck.Block.Select
import SpendCheck.Bytes.Basic
import SpendCheck.Bytes.Hex
import SpendCheck.Curve.Ecdsa
import SpendCheck.Curve.Secp256k1
import SpendCheck.Hash.Basic
import SpendCheck.Hash.Ripemd160
import SpendCheck.Hash.Sha256
import SpendCheck.Json.Basic
import SpendCheck.Json.Codec
import SpendCheck.Json.Read
import SpendCheck.Json.Token
import SpendCheck.Json.Write
import SpendCheck.Script.Asm
import SpendCheck.Script.Effect
import SpendCheck.Script.Error
import SpendCheck.Script.Opcode
import SpendCheck.Script.Run
import SpendCheck.Script.Stack
import SpendCheck.Script.StackValue
import SpendCheck.Signature.Cache
import SpendCheck.Signature.Context
import SpendCheck.Signature.Der
import SpendCheck.Signature.Digest
import SpendCheck.Signature.PublicKey
import SpendCheck.Signature.Session
import SpendCheck.Signature.Verifier
import SpendCheck.Spend.Reconstruct
import SpendCheck.Spend.Template
import SpendCheck.Text.Blank
import SpendCheck.Text.Numeral
import SpendCheck.Trace.Event
import SpendCheck.Trace.Traced
import SpendCheck.Tx.Basic
import SpendCheck.Tx.Data
import SpendCheck.Tx.Form
import SpendCheck.Tx.Raw
import SpendCheck.Validation.Check
import SpendCheck.Validation.Config
import SpendCheck.Validation.Verdict
import SpendCheck.Proofs.Block.Binding
import SpendCheck.Proofs.Block.Canonical
import SpendCheck.Proofs.Block.Compact
import SpendCheck.Proofs.Block.Greedy
import SpendCheck.Proofs.Block.Levels
import SpendCheck.Proofs.Block.Mining
import SpendCheck.Proofs.Block.Order
import SpendCheck.Proofs.Block.Ranking
import SpendCheck.Proofs.Block.Search
import SpendCheck.Proofs.Block.Selection
import SpendCheck.Proofs.Block.Totals
import SpendCheck.Proofs.Block.Tree
import SpendCheck.Proofs.Bytes.Hex
import SpendCheck.Proofs.Bytes.Number
import SpendCheck.Proofs.Hash.Sha256
import SpendCheck.Proofs.Json.Lawful
import SpendCheck.Proofs.Json.RoundTrip
import SpendCheck.Proofs.Json.Shape
import SpendCheck.Proofs.Json.Transaction
import SpendCheck.Proofs.Script.Agree
import SpendCheck.Proofs.Script.Calls
import SpendCheck.Proofs.Script.Canonical
import SpendCheck.Proofs.Script.Failure
import SpendCheck.Proofs.Script.Frame
import SpendCheck.Proofs.Script.Grammar
import SpendCheck.Proofs.Script.Leads
import SpendCheck.Proofs.Script.Limit
import SpendCheck.Proofs.Script.Lock
import SpendCheck.Proofs.Script.MultiSig
import SpendCheck.Proofs.Script.Outcomes
import SpendCheck.Proofs.Script.Popping
import SpendCheck.Proofs.Script.Sequence
import SpendCheck.Proofs.Script.StepCount
import SpendCheck.Proofs.Script.Tokens
import SpendCheck.Proofs.Script.Turns
import SpendCheck.Proofs.Signature.Bip143
import SpendCheck.Proofs.Signature.Check
import SpendCheck.Proofs.Signature.Context
import SpendCheck.Proofs.Signature.History
import SpendCheck.Proofs.Signature.Matching
import SpendCheck.Proofs.Spend.KeyHash
import SpendCheck.Proofs.Spend.MultiSig
import SpendCheck.Proofs.Spend.Nested
import SpendCheck.Proofs.Spend.Reconstruct
import SpendCheck.Proofs.Spend.Refusal
import SpendCheck.Proofs.Spend.ScriptHash
import SpendCheck.Proofs.Spend.Substitute
import SpendCheck.Proofs.Spend.Template
import SpendCheck.Proofs.Text.Numeral
import SpendCheck.Proofs.Text.Words
import SpendCheck.Proofs.Trace.Agree
import SpendCheck.Proofs.Trace.Calls
import SpendCheck.Proofs.Trace.Follows
import SpendCheck.Proofs.Trace.Outcome
import SpendCheck.Proofs.Validation.Accepts
import SpendCheck.Proofs.Validation.Isolation
import SpendCheck.Proofs.Validation.Regime
import SpendCheck.Proofs.Validation.Tightening
import SpendCheck.Proofs.Validation.Whole
