import SpendCheck.Json.Token

/-!
# Reading JSON

Tokens are read one at a time against the containers that are still open, so
reading a text is a fold over its tokens.  A key that occurs twice in an object
keeps the later value.
-/

namespace SpendCheck.Json

/-- A container that is waiting for the value being read. -/
inductive Frame where
  | array (itemsLastFirst : List Json)
  | member (members : List (String × Json)) (key : String)

inductive Phase where
  | value
  /-- An array has just been opened, and may be closed at once. -/
  | firstItem
  /-- A key has to come; the object may be closed only before its first key. -/
  | key (members : List (String × Json)) (closable : Bool)
  | colon (members : List (String × Json)) (key : String)
  | complete (value : Json)

structure Reader where
  phase : Phase
  frames : List Frame

namespace Reader

def start : Reader := { phase := .value, frames := [] }

/-- Containers may be nested this deep. -/
def maxDepth : Nat := 127

def openValue (frames : List Frame) : Token → Option Reader
  | .scalar v => some { phase := .complete v, frames }
  | .openArray =>
    if frames.length < maxDepth then
      some { phase := .firstItem, frames := .array [] :: frames }
    else none
  | .openObject =>
    if frames.length < maxDepth then some { phase := .key [] true, frames } else none
  | _ => none

/-- What may follow a complete value depends on the container it stands in. -/
def closeValue (v : Json) : List Frame → Token → Option Reader
  | .array items :: frames, .comma =>
    some { phase := .value, frames := .array (v :: items) :: frames }
  | .array items :: frames, .closeArray =>
    some { phase := .complete (.array (v :: items).reverse), frames }
  | .member members key :: frames, .comma =>
    some { phase := .key (insertMember members key v) false, frames }
  | .member members key :: frames, .closeObject =>
    some { phase := .complete (.object (insertMember members key v)), frames }
  | _, _ => none

def step (r : Reader) (token : Token) : Option Reader :=
  match r.phase with
  | .value => openValue r.frames token
  | .firstItem =>
    match token, r.frames with
    | .closeArray, _ :: frames => some { phase := .complete (.array []), frames }
    | _, frames => openValue frames token
  | .key members closable =>
    match token with
    | .scalar (.string key) => some { phase := .colon members key, frames := r.frames }
    | .closeObject =>
      if closable then some { phase := .complete (.object members), frames := r.frames } else none
    | _ => none
  | .colon members key =>
    match token with
    | .colon => some { phase := .value, frames := .member members key :: r.frames }
    | _ => none
  | .complete v => closeValue v r.frames token

/-- The value read, once nothing is left open. -/
def value? : Reader → Option Json
  | { phase := .complete v, frames := [] } => some v
  | _ => none

end Reader

/-- Reads a text that holds exactly one JSON value. -/
def read? (text : String) : Option Json := do
  let tokens ← Token.scan text.toList
  let reader ← tokens.foldlM Reader.step Reader.start
  reader.value?

end SpendCheck.Json
