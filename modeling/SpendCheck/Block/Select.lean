import SpendCheck.Validation.Check

/-!
# Selecting transactions

Transactions go into a block by decreasing fee for their weight, each as long as
neither the total fee nor the total weight passes its limit.  One that does not fit
is passed over, and smaller ones behind it may still be taken.
-/

namespace SpendCheck

structure SelectionLimits where
  maxWeight : UInt64 := 3990000
  maxFee : UInt64 := 20616923
deriving DecidableEq, Repr

def SelectionLimits.keys : List String := ["max_weight", "max_fee"]

instance : JsonForm SelectionLimits where
  toJson limits := .object [
    ("max_weight", toJson limits.maxWeight),
    ("max_fee", toJson limits.maxFee)]
  ofJson? json := do
    let record ← json.record? SelectionLimits.keys
    let standard : SelectionLimits := {}
    return {
      maxWeight := ← record.fieldOr? "max_weight" standard.maxWeight
      maxFee := ← record.fieldOr? "max_fee" standard.maxFee }

/-- A transaction that could go into a block, with its place among the
candidates. -/
structure Candidate where
  position : Nat
  tx : Transaction
  fee : Nat
  weight : Nat
deriving DecidableEq

namespace Candidate

/-- Whether a candidate may stand before another: it pays at least as much for its
weight.  The rates are compared crosswise, so nothing is rounded. -/
def paysAtLeast (a b : Candidate) : Bool := b.fee * a.weight ≤ a.fee * b.weight

end Candidate

structure Selection where
  chosen : List Candidate
  fee : Nat
  weight : Nat
deriving DecidableEq

namespace Selection

def empty : Selection := { chosen := [], fee := 0, weight := 0 }

/-- The largest total that is kept apart from larger ones. -/
def ceiling : Nat := 0xffffffffffffffff

/-- A sum that stays at the ceiling once it gets there. -/
def cappedAdd (a b : Nat) : Nat := min (a + b) ceiling

def consider (limits : SelectionLimits) (s : Selection) (c : Candidate) : Selection :=
  let fee := cappedAdd s.fee c.fee
  let weight := cappedAdd s.weight c.weight
  if weight ≤ limits.maxWeight.toNat ∧ fee ≤ limits.maxFee.toNat then
    { chosen := s.chosen ++ [c], fee, weight }
  else s

/-- Takes what fits, in the order given. -/
def greedy (limits : SelectionLimits) (candidates : List Candidate) : Selection :=
  candidates.foldl (consider limits) empty

def txids (s : Selection) : Except DataError (List Hash256) :=
  s.chosen.mapM fun c => c.tx.computedTxid

end Selection

namespace Validator

/-- A transaction as a candidate, if it validates, does not create value and can be
weighed. -/
def candidate? (v : Validator) (tx : Transaction) (position : Nat) :
    Traced Event (Option Candidate) := do
  if ← v.validate tx then
    match tx.fee?, tx.weight with
    | none, _ => return none
    | some fee, .ok weight => return some { position, tx, fee, weight }
    | some _, .error error =>
      Traced.note (.skipped tx.name error)
      return none
  else return none

/-- Selects among some transactions.  Of two that pay alike, the one that comes
first is considered first. -/
def select (v : Validator) (limits : SelectionLimits) (txs : List Transaction) :
    Traced Event Selection := do
  let eligible ← txs.zipIdx.mapM fun (tx, position) => v.candidate? tx position
  let selection := Selection.greedy limits
    ((eligible.filterMap id).mergeSort Candidate.paysAtLeast)
  Traced.note
    (.selected selection.chosen.length txs.length selection.fee selection.weight)
  return selection

end Validator
end SpendCheck
