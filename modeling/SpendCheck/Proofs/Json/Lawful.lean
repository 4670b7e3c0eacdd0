import Mathlib.Data.List.Basic
import SpendCheck.Json.Codec

/-!
# Forms that read back

A form is lawful if every value is read back from what is written of it.  Numbers, texts and
lists of them have lawful forms, and so have optional values, as long as what is optional is
never written as null.
-/

namespace SpendCheck

class JsonForm.Lawful (α : Type) [JsonForm α] : Prop where
  read_write (a : α) : ofJson? (toJson a) = some a

/-- Null is the form of no value. -/
class JsonForm.NeverNull (α : Type) [JsonForm α] : Prop where
  read_null : (ofJson? .null : Option α) = none

namespace JsonForm

variable {α : Type} [JsonForm α]

@[simp] theorem ofJson?_toJson [Lawful α] (a : α) : ofJson? (toJson a) = some a :=
  Lawful.read_write a

instance : Lawful String where
  read_write _ := rfl

instance : NeverNull String where
  read_null := rfl

instance : Lawful Bool where
  read_write _ := rfl

theorem natBelow?_ofNat {bound n : Nat} (h : n < bound) :
    (Json.ofNat n).natBelow? bound = some n := by
  have hnat : (Json.ofNat n).nat? = some n := rfl
  rw [Json.natBelow?, hnat, Option.filter_some, if_pos (by simpa using h)]

instance : Lawful UInt8 where
  read_write n := by
    show ((Json.ofNat n.toNat).natBelow? 0x100).map UInt8.ofNat = some n
    rw [natBelow?_ofNat n.toNat_lt, Option.map_some, UInt8.ofNat_toNat]

instance : Lawful UInt32 where
  read_write n := by
    show ((Json.ofNat n.toNat).natBelow? 0x100000000).map UInt32.ofNat = some n
    rw [natBelow?_ofNat n.toNat_lt, Option.map_some, UInt32.ofNat_toNat]

instance : Lawful UInt64 where
  read_write n := by
    show ((Json.ofNat n.toNat).natBelow? 0x10000000000000000).map UInt64.ofNat = some n
    rw [natBelow?_ofNat n.toNat_lt, Option.map_some, UInt64.ofNat_toNat]

instance : NeverNull UInt64 where
  read_null := rfl

instance : Lawful Int32 where
  read_write n := by
    show (if -0x80000000 ≤ n.toInt ∧ n.toInt < 0x80000000 then some (Int32.ofInt n.toInt) else none)
      = some n
    rw [if_pos ⟨n.le_toInt, n.toInt_lt⟩, Int32.ofInt_toInt]

theorem ofJson?_option_of_ne_null {json : Json} (h : json ≠ .null) :
    (ofJson? json : Option (Option α)) = (ofJson? json).map some := by
  cases json with
  | null => exact absurd rfl h
  | _ => rfl

instance [Lawful α] [NeverNull α] : Lawful (Option α) where
  read_write a := by
    cases a with
    | none => rfl
    | some a =>
      have hnull : toJson a ≠ .null := by
        intro h
        have hread : (ofJson? .null : Option α) = some a := h ▸ ofJson?_toJson a
        rw [NeverNull.read_null] at hread
        cases hread
      show ofJson? (toJson a) = some (some a)
      rw [ofJson?_option_of_ne_null hnull, ofJson?_toJson, Option.map_some]

/-! ## Lists -/

theorem mapM_ofJson?_map_toJson {items : List α}
    (h : ∀ a ∈ items, ofJson? (toJson a) = some a) :
    (items.map toJson).mapM ofJson? = some items := by
  induction items with
  | nil => rfl
  | cons a items ih =>
    have hrest := ih fun b hb => h b (List.mem_cons_of_mem a hb)
    rw [List.map_cons, List.mapM_cons, h a List.mem_cons_self, hrest]
    rfl

theorem ofJson?_toJson_list {items : List α} (h : ∀ a ∈ items, ofJson? (toJson a) = some a) :
    ofJson? (toJson items) = some items := mapM_ofJson?_map_toJson h

instance [Lawful α] : Lawful (List α) where
  read_write _ := ofJson?_toJson_list fun a _ => ofJson?_toJson a

instance : NeverNull (List α) where
  read_null := rfl

theorem exists_read_of_mem_mapM {jsons : List Json} {items : List α}
    (h : jsons.mapM ofJson? = some items) {a : α} (ha : a ∈ items) :
    ∃ json, ofJson? json = some a := by
  induction jsons generalizing items with
  | nil =>
    obtain rfl : items = [] := (Option.some.inj h).symm
    cases ha
  | cons json jsons ih =>
    rw [List.mapM_cons] at h
    obtain ⟨first, hfirst, hrest⟩ := Option.bind_eq_some_iff.mp h
    obtain ⟨others, hothers, hitems⟩ := Option.bind_eq_some_iff.mp hrest
    rw [← Option.some.inj hitems] at ha
    cases List.mem_cons.mp ha with
    | inl hhead => exact ⟨json, hhead ▸ hfirst⟩
    | inr htail => exact ih hothers htail

/-- Every item of a list that is read has been read itself. -/
theorem exists_read_of_mem {json : Json} {items : List α} (h : ofJson? json = some items) {a : α}
    (ha : a ∈ items) : ∃ json', ofJson? json' = some a := by
  cases json with
  | array jsons => exact exists_read_of_mem_mapM h ha
  | _ => cases h

end JsonForm
end SpendCheck
