import Mathlib.Data.List.Nodup
import SpendCheck.Json.Codec

/-!
# Shapes of records

A record names its members, and what stands for each that may be left out.  An object that has
other members, or leaves some out, is completed to one that has exactly the members named.  An
array has the values of the members in the order in which they are named.
-/

namespace SpendCheck

namespace Json

structure Shape where
  /-- The keys in the order they are written in, each with the value that stands for it where it
  is left out.  A key without such a value may not be left out. -/
  fields : List (String × Option Json)
  distinct : (fields.map Prod.fst).Nodup := by decide

namespace Shape

def keys (shape : Shape) : List String := shape.fields.map Prod.fst

/-- The members of an object that the shape names, and the standard ones that it left out. -/
def complete (shape : Shape) (members : List (String × Json)) : List (String × Json) :=
  shape.fields.filterMap fun field => ((members.lookup field.1).or field.2).map (field.1, ·)

end Shape

/-- With the key only once in the list, its member is the one made of it. -/
theorem lookup_filterMap_fields {fields : List (String × Option Json)}
    (hdistinct : (fields.map Prod.fst).Nodup) (valueOf : String × Option Json → Option Json)
    (key : String) :
    (fields.filterMap fun field => (valueOf field).map (field.1, ·)).lookup key =
      (fields.lookup key).bind fun standard => valueOf (key, standard) := by
  induction fields with
  | nil => rfl
  | cons field fields ih =>
    obtain ⟨k, standard⟩ := field
    rw [List.map_cons, List.nodup_cons] at hdistinct
    specialize ih hdistinct.2
    by_cases hkey : key = k
    · subst hkey
      rw [List.lookup_cons_self, Option.bind_some]
      cases hvalue : valueOf (key, standard) with
      | some value => simp [hvalue]
      | none =>
        have hrest : fields.lookup key = none := by
          refine List.lookup_eq_none_iff.mpr fun field hfield => ?_
          have hne : key ≠ field.1 := fun h =>
            hdistinct.1 (List.mem_map.mpr ⟨field, hfield, h.symm⟩)
          simpa using hne
        simp [hvalue, ih, hrest]
    · have hbeq : (key == k) = false := beq_eq_false_iff_ne.mpr hkey
      cases hvalue : valueOf (k, standard) <;> simp [hvalue, List.lookup_cons, hbeq, ih]

variable {α : Type} [JsonForm α]

theorem Shape.lookup_complete (shape : Shape) (members : List (String × Json)) (key : String) :
    (shape.complete members).lookup key =
      (shape.fields.lookup key).bind fun standard => (members.lookup key).or standard :=
  lookup_filterMap_fields shape.distinct (fun field => (members.lookup field.1).or field.2) key

theorem Shape.field?_complete {shape : Shape} {key : String}
    (hkey : shape.fields.lookup key = some none) (members : List (String × Json)) :
    (object (shape.complete members)).field? key =
      ((object members).field? key : Option α) := by
  simp only [field?, get?, shape.lookup_complete, hkey, Option.bind_some, Option.or_none]

/-- A member that is left out reads as the standard value in its place does. -/
theorem Shape.fieldOr?_complete {shape : Shape} {key : String} {absent : α}
    (hstandard : (shape.fields.lookup key).join.bind ofJson? = some absent)
    (members : List (String × Json)) :
    (object (shape.complete members)).fieldOr? key absent =
      (object members).fieldOr? key absent := by
  obtain ⟨standard, hjoin, hread⟩ := Option.bind_eq_some_iff.mp hstandard
  have hkey : shape.fields.lookup key = some (some standard) := Option.join_eq_some_iff.mp hjoin
  simp only [fieldOr?, get?, shape.lookup_complete, hkey, Option.bind_some]
  cases members.lookup key with
  | some value => rfl
  | none => exact hread

end Json

/-- An array is read as the object with its items under the keys. -/
theorem Json.record?_array_bind {keys : List String} {items : List Json} {α : Type}
    {read : Json → Option α} :
    ((array items).record? keys).bind read =
      if items.length ≤ keys.length then ((object (keys.zip items)).record? keys).bind read
      else none := by
  rw [record?]
  by_cases hlength : items.length ≤ keys.length
  · rw [if_pos hlength, if_pos hlength]
    rfl
  · rw [if_neg hlength, if_neg hlength]
    rfl

theorem Json.record_of_bind {keys : List String} {json : Json} {α : Type} {read : Json → Option α}
    {a : α} (h : (json.record? keys).bind read = some a) :
    (∃ members, json = .object members) ∨ ∃ items, json = .array items := by
  cases json with
  | object members => exact .inl ⟨members, rfl⟩
  | array items => exact .inr ⟨items, rfl⟩
  | _ => cases h

/-- Objects are read, with nothing taken from members that the shape does not name and the
standard value for each that is left out, and arrays as the objects with their items under the
keys in order; nothing else is.  What is written is an object with exactly the members named. -/
structure JsonForm.HasShape (α : Type) [JsonForm α] (shape : Json.Shape) : Prop where
  isRecord {json : Json} {a : α} : ofJson? json = some a →
    (∃ members, json = .object members) ∨ ∃ items, json = .array items
  places (items : List Json) : (ofJson? (.array items) : Option α) =
    if items.length ≤ shape.keys.length then ofJson? (.object (shape.keys.zip items)) else none
  required {members : List (String × Json)} {a : α} : ofJson? (.object members) = some a →
    ∀ key, (key, none) ∈ shape.fields → ∃ value, (key, value) ∈ members
  complete (members : List (String × Json)) :
    (ofJson? (.object (shape.complete members)) : Option α) = ofJson? (.object members)
  write (a : α) : ∃ members, toJson a = .object members ∧ members.map Prod.fst = shape.keys

/-- Whatever a record was read from, it is read from an object as well. -/
theorem JsonForm.HasShape.exists_object {α : Type} [JsonForm α] {shape : Json.Shape}
    (hshape : HasShape α shape) {json : Json} {a : α} (h : ofJson? json = some a) :
    ∃ members, ofJson? (.object members) = some a := by
  obtain ⟨members, rfl⟩ | ⟨items, rfl⟩ := hshape.isRecord h
  · exact ⟨members, h⟩
  · rw [hshape.places] at h
    exact ⟨_, (Option.ite_none_right_eq_some.mp h).2⟩

end SpendCheck
