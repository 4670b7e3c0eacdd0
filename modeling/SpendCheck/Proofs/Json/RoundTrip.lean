import SpendCheck.Block.Select
import SpendCheck.Proofs.Json.Lawful
import SpendCheck.Proofs.Json.Shape
import SpendCheck.Tx.Form

/-!
# Reading back what was written

The forms of opcodes, stack values, scripts, the configuration and the limits are lawful.  Those
of transactions and of their parts are lawful but for one thing: the type of a locking script
may be kept as a name that is one of the known ones, and then it comes back as the known type.
Reading never gives such a value.
-/

namespace SpendCheck

namespace JsonForm

/-- Plain values are read back from what is written of them, and only plain values are ever read,
so that whatever has been read is read again from its own form. -/
structure RoundTrips (α : Type) [JsonForm α] (Plain : α → Prop) : Prop where
  plain_of_read : ∀ {json : Json} {a : α}, ofJson? json = some a → Plain a
  of_plain : ∀ {a : α}, Plain a → ofJson? (toJson a) = some a
  of_read : ∀ {json : Json} {a : α}, ofJson? json = some a → ofJson? (toJson a) = some a :=
    fun h => of_plain (plain_of_read h)

theorem Lawful.roundTrips {α : Type} [JsonForm α] [Lawful α] : RoundTrips α fun _ => True where
  plain_of_read _ := trivial
  of_plain {a} _ := ofJson?_toJson a

end JsonForm

open JsonForm

/-! ## Opcodes and stack values -/

instance : JsonForm.Lawful Opcode where
  read_write op := by
    cases op with
    | pushBytes length =>
      show (ofJson? (toJson length)).map Opcode.pushBytes = _
      rw [ofJson?_toJson, Option.map_some]
    | _ => rfl

instance : JsonForm.Lawful StackValue where
  read_write value := by
    cases value with
    | bytes data =>
      show (ofJson? (toJson data)).map StackValue.bytes = _
      rw [ofJson?_toJson, Option.map_some]
    | _ => rfl

/-! ## Configuration and limits -/

instance : JsonForm.Lawful TaprootPolicy where
  read_write policy := by cases policy <;> rfl

namespace Config

def shape : Json.Shape where
  fields := [("taproot", some (.string "unverified")), ("max_steps", some .null)]

theorem ofJson?_object_eq_some_iff {members : List (String × Json)} {config : Config} :
    ofJson? (.object members) = some config ↔
      (Json.object members).fieldOr? "taproot" .unverified = some config.taproot ∧
      (Json.object members).fieldOr? "max_steps" none = some config.maxSteps := by
  cases config
  simp [ofJson?, Json.record?, Json.object?, Option.bind_eq_some_iff]

instance : JsonForm.Lawful Config where
  read_write config := ofJson?_object_eq_some_iff.mpr
    ⟨ofJson?_toJson config.taproot, ofJson?_toJson config.maxSteps⟩

theorem hasShape : HasShape Config shape where
  isRecord h := Json.record_of_bind h
  places _ := Json.record?_array_bind
  required _ := by simp [shape]
  complete members := by
    refine Option.ext fun config => ?_
    rw [ofJson?_object_eq_some_iff, ofJson?_object_eq_some_iff,
      Json.Shape.fieldOr?_complete rfl, Json.Shape.fieldOr?_complete rfl]
  write _ := ⟨_, rfl, rfl⟩

end Config

namespace SelectionLimits

def shape : Json.Shape where
  fields := [("max_weight", some (.integer 3990000)), ("max_fee", some (.integer 20616923))]

theorem ofJson?_object_eq_some_iff {members : List (String × Json)} {limits : SelectionLimits} :
    ofJson? (.object members) = some limits ↔
      (Json.object members).fieldOr? "max_weight" 3990000 = some limits.maxWeight ∧
      (Json.object members).fieldOr? "max_fee" 20616923 = some limits.maxFee := by
  cases limits
  simp [ofJson?, Json.record?, Json.object?, Option.bind_eq_some_iff]

instance : JsonForm.Lawful SelectionLimits where
  read_write limits := ofJson?_object_eq_some_iff.mpr
    ⟨ofJson?_toJson limits.maxWeight, ofJson?_toJson limits.maxFee⟩

theorem hasShape : HasShape SelectionLimits shape where
  isRecord h := Json.record_of_bind h
  places _ := Json.record?_array_bind
  required _ := by simp [shape]
  complete members := by
    refine Option.ext fun limits => ?_
    rw [ofJson?_object_eq_some_iff, ofJson?_object_eq_some_iff,
      Json.Shape.fieldOr?_complete rfl, Json.Shape.fieldOr?_complete rfl]
  write _ := ⟨_, rfl, rfl⟩

end SelectionLimits

/-! ## Types of locking scripts -/

namespace LockType

/-- The names that have a type of their own. -/
def ownNames : List String :=
  ["p2pk", "p2pkh", "p2sh", "v0_p2wpkh", "v0_p2wsh", "v1_p2tr", "op_return", "multisig"]

/-- A type kept by name has none of these names. -/
def Plain (type : LockType) : Prop := ∀ name, type = .other name → name ∉ ownNames

theorem ownNames_eq : ownNames = known.map LockType.name := rfl

theorem name_ofName (name : String) : (ofName name).name = name := by
  unfold ofName
  cases hfind : known.find? fun type => type.name = name with
  | some type => simpa using List.find?_some hfind
  | none => rfl

theorem plain_ofName (name : String) : (ofName name).Plain := by
  unfold ofName
  cases hfind : known.find? fun type => type.name = name with
  | some type =>
    intro other hother
    have hknown : LockType.other other ∈ known := hother ▸ List.mem_of_find?_eq_some hfind
    simp [known] at hknown
  | none =>
    rintro _ ⟨rfl⟩ hknown
    rw [ownNames_eq] at hknown
    obtain ⟨type, hmem, hname⟩ := List.mem_map.mp hknown
    have := List.find?_eq_none.mp hfind type hmem
    simp [hname] at this

theorem ofName_name {type : LockType} (h : type.Plain) : ofName type.name = type := by
  cases type with
  | other name =>
    have hfind : known.find? (fun type => type.name = name) = none := by
      refine List.find?_eq_none.mpr fun type hmem => ?_
      have hne : type.name ≠ name := fun hname =>
        h name rfl (ownNames_eq ▸ List.mem_map.mpr ⟨type, hmem, hname⟩)
      simpa using hne
    show (known.find? fun type => type.name = name).getD (other name) = other name
    rw [hfind, Option.getD_none]
  | _ => rfl

/-- Every text is the name of a type, and is kept as it is. -/
theorem toJson_ofJson? {json : Json} {type : LockType} (h : ofJson? json = some type) :
    toJson type = json := by
  cases json with
  | string name =>
    obtain rfl : ofName name = type := Option.some.inj h
    exact congrArg Json.string (name_ofName name)
  | _ => cases h

theorem roundTrips : RoundTrips LockType Plain where
  plain_of_read {json type} h := by
    cases json with
    | string name => exact Option.some.inj h ▸ plain_ofName name
    | _ => cases h
  of_plain h := congrArg some (ofName_name h)

example : ofJson? (toJson (other "p2pk")) = some p2pk := rfl

end LockType
end SpendCheck
