import SpendCheck.Proofs.Json.RoundTrip

/-!
# Reading back transactions

The records of a transaction one inside the other: each is read from its members, so it is read
back as soon as what it holds is.
-/

namespace SpendCheck

open JsonForm

theorem Json.exists_mem_of_field? {α : Type} [JsonForm α] {members : List (String × Json)}
    {key : String} {a : α} (h : (Json.object members).field? key = some a) :
    ∃ value, (key, value) ∈ members := by
  obtain ⟨value, hvalue, -⟩ := Option.bind_eq_some_iff.mp h
  obtain ⟨before, after, hmembers, -⟩ := List.lookup_eq_some_iff.mp hvalue
  exact ⟨value, by simp [hmembers]⟩

namespace Output

def shape : Json.Shape where
  fields := [("scriptpubkey", none), ("scriptpubkey_asm", none), ("scriptpubkey_type", none),
    ("scriptpubkey_address", some .null), ("value", none)]

def Plain (o : Output) : Prop := o.type.Plain

theorem ofJson?_object_eq_some_iff {members : List (String × Json)} {o : Output} :
    ofJson? (.object members) = some o ↔
      (Json.object members).field? "scriptpubkey" = some o.script ∧
      (Json.object members).field? "scriptpubkey_asm" = some o.scriptAsm ∧
      (Json.object members).field? "scriptpubkey_type" = some o.type ∧
      (Json.object members).fieldOr? "scriptpubkey_address" none = some o.address ∧
      (Json.object members).field? "value" = some o.value := by
  cases o
  simp [ofJson?, Json.record?, Json.object?, Option.bind_eq_some_iff]

theorem hasShape : HasShape Output shape where
  isRecord h := Json.record_of_bind h
  places _ := Json.record?_array_bind
  required h := by
    obtain ⟨hscript, hasm, htype, -, hvalue⟩ := ofJson?_object_eq_some_iff.mp h
    simp [shape, Json.exists_mem_of_field? hscript, Json.exists_mem_of_field? hasm,
      Json.exists_mem_of_field? htype, Json.exists_mem_of_field? hvalue]
  complete members := by
    refine Option.ext fun o => ?_
    rw [ofJson?_object_eq_some_iff, ofJson?_object_eq_some_iff, Json.Shape.field?_complete rfl,
      Json.Shape.field?_complete rfl, Json.Shape.field?_complete rfl,
      Json.Shape.fieldOr?_complete rfl, Json.Shape.field?_complete rfl]
  write _ := ⟨_, rfl, rfl⟩

theorem exists_type_of_read {members : List (String × Json)} {o : Output}
    (h : ofJson? (.object members) = some o) :
    ∃ type, members.lookup "scriptpubkey_type" = some type ∧ ofJson? type = some o.type := by
  obtain ⟨-, -, htype, -⟩ := ofJson?_object_eq_some_iff.mp h
  exact Option.bind_eq_some_iff.mp htype

theorem roundTrips : RoundTrips Output Plain where
  plain_of_read h := by
    obtain ⟨members, hobject⟩ := hasShape.exists_object h
    obtain ⟨type, -, htype⟩ := exists_type_of_read hobject
    exact LockType.roundTrips.plain_of_read htype
  of_plain {o} h := ofJson?_object_eq_some_iff.mpr ⟨ofJson?_toJson o.script,
    ofJson?_toJson o.scriptAsm, LockType.roundTrips.of_plain h, ofJson?_toJson o.address,
    ofJson?_toJson o.value⟩

/-- The text that states the type is written as it was read, known or not. -/
theorem get?_type_of_object {members : List (String × Json)} {o : Output}
    (h : ofJson? (.object members) = some o) :
    (toJson o).get? "scriptpubkey_type" = members.lookup "scriptpubkey_type" := by
  obtain ⟨type, hget, htype⟩ := exists_type_of_read h
  show some (toJson o.type) = _
  rw [hget, LockType.toJson_ofJson? htype]

theorem get?_type_of_array {items : List Json} {o : Output} (h : ofJson? (.array items) = some o) :
    (toJson o).get? "scriptpubkey_type" = items[2]? := by
  rw [hasShape.places] at h
  rw [get?_type_of_object (Option.ite_none_right_eq_some.mp h).2]
  obtain _ | ⟨_, _ | ⟨_, _ | ⟨type, rest⟩⟩⟩ := items <;> rfl

end Output

namespace Input

def shape : Json.Shape where
  fields := [("txid", none), ("vout", none), ("prevout", none), ("scriptsig", some (.string "")),
    ("scriptsig_asm", some (.string "")), ("witness", some .null),
    ("is_coinbase", some (.bool false)), ("sequence", none),
    ("inner_redeemscript_asm", some .null), ("inner_witnessscript_asm", some .null)]

def Plain (i : Input) : Prop := i.prevout.Plain

theorem ofJson?_object_eq_some_iff {members : List (String × Json)} {i : Input} :
    ofJson? (.object members) = some i ↔
      (Json.object members).field? "txid" = some i.txid ∧
      (Json.object members).field? "vout" = some i.vout ∧
      (Json.object members).field? "prevout" = some i.prevout ∧
      (Json.object members).fieldOr? "scriptsig" "" = some i.scriptSig ∧
      (Json.object members).fieldOr? "scriptsig_asm" "" = some i.scriptSigAsm ∧
      (Json.object members).fieldOr? "witness" none = some i.witness ∧
      (Json.object members).fieldOr? "is_coinbase" false = some i.isCoinbase ∧
      (Json.object members).field? "sequence" = some i.sequence ∧
      (Json.object members).fieldOr? "inner_redeemscript_asm" none = some i.redeemScriptAsm ∧
      (Json.object members).fieldOr? "inner_witnessscript_asm" none = some i.witnessScriptAsm := by
  cases i
  simp [ofJson?, Json.record?, Json.object?, Option.bind_eq_some_iff, -Bool.exists_bool]

theorem hasShape : HasShape Input shape where
  isRecord h := Json.record_of_bind h
  places _ := Json.record?_array_bind
  required h := by
    obtain ⟨htxid, hvout, hprevout, -, -, -, -, hsequence, -⟩ := ofJson?_object_eq_some_iff.mp h
    simp [shape, Json.exists_mem_of_field? htxid, Json.exists_mem_of_field? hvout,
      Json.exists_mem_of_field? hprevout, Json.exists_mem_of_field? hsequence]
  complete members := by
    refine Option.ext fun i => ?_
    rw [ofJson?_object_eq_some_iff, ofJson?_object_eq_some_iff, Json.Shape.field?_complete rfl,
      Json.Shape.field?_complete rfl, Json.Shape.field?_complete rfl,
      Json.Shape.fieldOr?_complete rfl, Json.Shape.fieldOr?_complete rfl,
      Json.Shape.fieldOr?_complete rfl, Json.Shape.fieldOr?_complete rfl,
      Json.Shape.field?_complete rfl, Json.Shape.fieldOr?_complete rfl,
      Json.Shape.fieldOr?_complete rfl]
  write _ := ⟨_, rfl, rfl⟩

theorem roundTrips : RoundTrips Input Plain where
  plain_of_read h := by
    obtain ⟨members, hobject⟩ := hasShape.exists_object h
    obtain ⟨-, -, hprevout, -⟩ := ofJson?_object_eq_some_iff.mp hobject
    obtain ⟨prevout, -, hread⟩ := Option.bind_eq_some_iff.mp hprevout
    exact Output.roundTrips.plain_of_read hread
  of_plain {i} h := ofJson?_object_eq_some_iff.mpr ⟨ofJson?_toJson i.txid, ofJson?_toJson i.vout,
    Output.roundTrips.of_plain h, ofJson?_toJson i.scriptSig, ofJson?_toJson i.scriptSigAsm,
    ofJson?_toJson i.witness, ofJson?_toJson i.isCoinbase, ofJson?_toJson i.sequence,
    ofJson?_toJson i.redeemScriptAsm, ofJson?_toJson i.witnessScriptAsm⟩

end Input

namespace Transaction

def shape : Json.Shape where
  fields := [("txid", some .null), ("version", none), ("locktime", none), ("vin", none),
    ("vout", none)]

def Plain (tx : Transaction) : Prop := (∀ i ∈ tx.inputs, i.Plain) ∧ ∀ o ∈ tx.outputs, o.Plain

theorem ofJson?_object_eq_some_iff {members : List (String × Json)} {tx : Transaction} :
    ofJson? (.object members) = some tx ↔
      (Json.object members).fieldOr? "txid" none = some tx.txid ∧
      (Json.object members).field? "version" = some tx.version ∧
      (Json.object members).field? "locktime" = some tx.lockTime ∧
      (Json.object members).field? "vin" = some tx.inputs ∧
      (Json.object members).field? "vout" = some tx.outputs := by
  cases tx
  simp [ofJson?, Json.record?, Json.object?, Option.bind_eq_some_iff]

theorem hasShape : HasShape Transaction shape where
  isRecord h := Json.record_of_bind h
  places _ := Json.record?_array_bind
  required h := by
    obtain ⟨-, hversion, hlockTime, hinputs, houtputs⟩ := ofJson?_object_eq_some_iff.mp h
    simp [shape, Json.exists_mem_of_field? hversion, Json.exists_mem_of_field? hlockTime,
      Json.exists_mem_of_field? hinputs, Json.exists_mem_of_field? houtputs]
  complete members := by
    refine Option.ext fun tx => ?_
    rw [ofJson?_object_eq_some_iff, ofJson?_object_eq_some_iff, Json.Shape.fieldOr?_complete rfl,
      Json.Shape.field?_complete rfl, Json.Shape.field?_complete rfl,
      Json.Shape.field?_complete rfl, Json.Shape.field?_complete rfl]
  write _ := ⟨_, rfl, rfl⟩

theorem roundTrips : RoundTrips Transaction Plain where
  plain_of_read h := by
    obtain ⟨members, hobject⟩ := hasShape.exists_object h
    obtain ⟨-, -, -, hinputs, houtputs⟩ := ofJson?_object_eq_some_iff.mp hobject
    obtain ⟨inputs, -, hreadInputs⟩ := Option.bind_eq_some_iff.mp hinputs
    obtain ⟨outputs, -, hreadOutputs⟩ := Option.bind_eq_some_iff.mp houtputs
    constructor
    · intro i hi
      obtain ⟨json, hjson⟩ := exists_read_of_mem hreadInputs hi
      exact Input.roundTrips.plain_of_read hjson
    · intro o ho
      obtain ⟨json, hjson⟩ := exists_read_of_mem hreadOutputs ho
      exact Output.roundTrips.plain_of_read hjson
  of_plain {tx} h := by
    have hinputs : ofJson? (toJson tx.inputs) = some tx.inputs :=
      ofJson?_toJson_list fun i hi => Input.roundTrips.of_plain (h.1 i hi)
    have houtputs : ofJson? (toJson tx.outputs) = some tx.outputs :=
      ofJson?_toJson_list fun o ho => Output.roundTrips.of_plain (h.2 o ho)
    exact ofJson?_object_eq_some_iff.mpr ⟨ofJson?_toJson tx.txid, ofJson?_toJson tx.version,
      ofJson?_toJson tx.lockTime, hinputs, houtputs⟩

end Transaction

/-- Every form of the data model reads back what it wrote and keeps what it has read.  Records
drop the members they do not name, fill in those that may be left out, take arrays by place, and
write all members; a type of locking script is any text, and is written as it was read. -/
theorem JsonForm.forms_round_trip :
    (RoundTrips Transaction Transaction.Plain ∧ RoundTrips Input Input.Plain ∧
      RoundTrips Output Output.Plain ∧ RoundTrips Opcode (fun _ => True) ∧
      RoundTrips StackValue (fun _ => True) ∧ RoundTrips Asm (fun _ => True) ∧
      RoundTrips Config (fun _ => True) ∧ RoundTrips SelectionLimits fun _ => True) ∧
    (HasShape Transaction Transaction.shape ∧ HasShape Input Input.shape ∧
      HasShape Output Output.shape ∧ HasShape Config Config.shape ∧
      HasShape SelectionLimits SelectionLimits.shape) ∧
    (∀ name : String, ∃ type : LockType, ofJson? (.string name) = some type) ∧
    (∀ {members : List (String × Json)} {o : Output}, ofJson? (.object members) = some o →
      (toJson o).get? "scriptpubkey_type" = members.lookup "scriptpubkey_type") ∧
    ∀ {items : List Json} {o : Output}, ofJson? (.array items) = some o →
      (toJson o).get? "scriptpubkey_type" = items[2]? :=
  ⟨⟨Transaction.roundTrips, Input.roundTrips, Output.roundTrips, Lawful.roundTrips,
      Lawful.roundTrips, Lawful.roundTrips, Lawful.roundTrips, Lawful.roundTrips⟩,
    ⟨Transaction.hasShape, Input.hasShape, Output.hasShape, Config.hasShape,
      SelectionLimits.hasShape⟩,
    fun name => ⟨LockType.ofName name, rfl⟩, Output.get?_type_of_object,
    Output.get?_type_of_array⟩

namespace Output

/-- An output of a type that has no name of its own here, without an address and with a member
that no output has. -/
def anchorForm : Json := .object [
  ("scriptpubkey", .string "51024e73"),
  ("scriptpubkey_asm", .string "OP_PUSHNUM_1 OP_PUSHBYTES_2 4e73"),
  ("scriptpubkey_type", .string "anchor"),
  ("spent", .bool false),
  ("value", .integer 240)]

def anchor : Output where
  script := "51024e73"
  scriptAsm := "OP_PUSHNUM_1 OP_PUSHBYTES_2 4e73"
  type := .other "anchor"
  address := none
  value := 240

end Output

theorem JsonForm.forms_round_trip_anchor :
    ofJson? Output.anchorForm = some Output.anchor ∧
    ofJson? (toJson Output.anchor) = some Output.anchor ∧
    (toJson Output.anchor).get? "scriptpubkey_type" = some (.string "anchor") := by
  have hread : ofJson? Output.anchorForm = some Output.anchor := rfl
  obtain ⟨⟨-, -, hback, -⟩, -, -, htype, -⟩ := forms_round_trip
  exact ⟨hread, hback.of_read hread, htype hread⟩

end SpendCheck
