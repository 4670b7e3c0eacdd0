import SpendCheck.Json.Basic

/-!
# JSON forms

The JSON form of a type: how its values are written, and which JSON values are
read back as one.  Records are read field by field, from an object, whose members
that belong to no field are passed over, or from an array, whose items stand in the
order of the fields.  Both are more than is ever written, as is the second form of
values that are no more than a name.
-/

namespace SpendCheck

class JsonForm (α : Type) where
  toJson : α → Json
  ofJson? : Json → Option α

export JsonForm (toJson ofJson?)

namespace Json

/-- A member that has to be there. -/
def field? {α : Type} [JsonForm α] (json : Json) (key : String) : Option α :=
  (json.get? key).bind ofJson?

/-- A member that may be left out, but may not be of another type. -/
def fieldOr? {α : Type} [JsonForm α] (json : Json) (key : String) (absent : α) : Option α :=
  match json.get? key with
  | some value => ofJson? value
  | none => some absent

/-- The value itself, if it is an object. -/
def object? : Json → Option Json
  | .object members => some (.object members)
  | _ => none

/-- The object to read a record with these keys from.  The items of an array stand for the
members in the order of the keys, and those behind its end are left out. -/
def record? (keys : List String) : Json → Option Json
  | .array items => if items.length ≤ keys.length then some (.object (keys.zip items)) else none
  | json => json.object?

/-- The name of a value that is no more than that: by itself, or as the key of null. -/
def name? : Json → Option String
  | .object [(name, .null)] => some name
  | json => json.string?

end Json

instance : JsonForm String where
  toJson := .string
  ofJson? := Json.string?

instance : JsonForm Bool where
  toJson := .bool
  ofJson? := Json.bool?

instance : JsonForm UInt8 where
  toJson n := .ofNat n.toNat
  ofJson? json := (json.natBelow? 0x100).map UInt8.ofNat

instance : JsonForm UInt32 where
  toJson n := .ofNat n.toNat
  ofJson? json := (json.natBelow? 0x100000000).map UInt32.ofNat

instance : JsonForm UInt64 where
  toJson n := .ofNat n.toNat
  ofJson? json := (json.natBelow? 0x10000000000000000).map UInt64.ofNat

instance : JsonForm Int32 where
  toJson n := .integer n.toInt
  ofJson?
    | .integer n => if -0x80000000 ≤ n ∧ n < 0x80000000 then some (Int32.ofInt n) else none
    | _ => none

instance {α : Type} [JsonForm α] : JsonForm (Option α) where
  toJson
    | none => .null
    | some a => toJson a
  ofJson?
    | .null => some none
    | json => (ofJson? json).map some

instance {α : Type} [JsonForm α] : JsonForm (List α) where
  toJson items := .array (items.map toJson)
  ofJson?
    | .array items => items.mapM ofJson?
    | _ => none

end SpendCheck
