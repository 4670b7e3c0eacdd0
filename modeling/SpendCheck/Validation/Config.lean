import SpendCheck.Json.Codec

namespace SpendCheck

/-- What becomes of taproot inputs, which are never evaluated. -/
inductive TaprootPolicy where
  /-- They pass, and are reported as unverified. -/
  | unverified
  /-- They fail. -/
  | reject
deriving DecidableEq, Repr

namespace TaprootPolicy

def name : TaprootPolicy → String
  | unverified => "unverified"
  | reject => "reject"

def ofName? : String → Option TaprootPolicy
  | "unverified" => some unverified
  | "reject" => some reject
  | _ => none

end TaprootPolicy

structure Config where
  taproot : TaprootPolicy := .unverified
  /-- How many opcodes an input may execute; any number where it is not set. -/
  maxSteps : Option UInt64 := none
deriving DecidableEq, Repr

/-- Fails every input that cannot be evaluated. -/
def Config.strict : Config := { taproot := .reject }

instance : JsonForm TaprootPolicy where
  toJson policy := .string policy.name
  ofJson? json := json.name?.bind TaprootPolicy.ofName?

def Config.keys : List String := ["taproot", "max_steps"]

instance : JsonForm Config where
  toJson config := .object [
    ("taproot", toJson config.taproot),
    ("max_steps", toJson config.maxSteps)]
  ofJson? json := do
    let record ← json.record? Config.keys
    return {
      taproot := ← record.fieldOr? "taproot" .unverified
      maxSteps := ← record.fieldOr? "max_steps" none }

end SpendCheck
