/-
# FilterQuery.Proofs.Schema.RoundTrip -- schemas come back from their JSON text

A schema is written with its attributes as an object and read back with the same attributes in the
same order. This is the last layer over that of types and values: each layer says of its trees that
their text says all of them and that they are read as what they were made from (`Json.Denotes`), and
the text needs to be looked at only once for all of them (`json_reread`).

A schema is one with its names apart. Every schema that is made of attributes has this
(`EntitySchema.nodup_keys_ofAttributes`).
-/

import FilterQuery.Proofs.Table.Entries
import FilterQuery.Proofs.Value.RoundTrip
import FilterQuery.Schema.Codec

namespace FilterQuery

/-! ## Attributes -/

theorem AttributeKind.denotes_toJson (k : AttributeKind) : Json.Denotes ofJson? k.toJson k := by
  cases k <;> exact ⟨.string _, rfl⟩

namespace Attribute

/-- A type that is there is not taken for a missing one. -/
theorem optionalType?_toJson (t : ValueType) :
    optionalType? (some t.toJson) = (ValueType.ofJson? t.toJson).map some := by
  cases t <;> rfl

theorem optionalType?_ofOption (t? : Option ValueType) :
    optionalType? (some (.ofOption ValueType.toJson t?)) = some t? := by
  cases t? with
  | none => rfl
  | some t =>
    show optionalType? (some t.toJson) = some (some t)
    rw [optionalType?_toJson, t.denotes_toJson.read_eq]
    rfl

theorem written_ofOption (t? : Option ValueType) :
    (Json.ofOption ValueType.toJson t?).Written := by
  cases t? with
  | none => exact .null
  | some t => exact t.denotes_toJson.written

theorem denotes_toJson (a : Attribute) : Json.Denotes ofJson? a.toJson a := by
  have hname := Json.denotes_string a.name
  have hkind := a.kind.denotes_toJson
  have hcollection := Json.denotes_bool a.collection
  have htype := a.valueType.denotes_toJson
  constructor
  · apply Json.Written.object
    simp [hname.written, hkind.written, hcollection.written, htype.written, written_ofOption]
  · have hrecord :
        a.toJson.record? ["name", "kind", "collection", "value_type", "element_type"] =
          some [some (.string a.name), some a.kind.toJson, some (.bool a.collection),
            some a.valueType.toJson, some (.ofOption ValueType.toJson a.elementType)] := rfl
    rw [ofJson?, hrecord]
    simp only [hname.read_eq, hkind.read_eq, hcollection.read_eq, htype.read_eq,
      optionalType?_ofOption]
    rfl

end Attribute

/-! ## Entities -/

namespace EntitySchema

theorem nodup_keys_ofAttributes (name : String) (attributes : List Attribute) :
    (ofAttributes name attributes).attributes.keys.Nodup :=
  Table.nodup_keys_ofList _

/-- The attributes of an object are read in their order. -/
theorem attributes?_object {t : Table String Attribute} (hkeys : t.keys.Nodup) :
    attributes? (.object (t.entries.map fun (k, a) => (k, a.toJson))) = some t := by
  rw [attributes?, mapM_map_eq_some, Option.map_some, Table.ofList_entries hkeys]
  intro e
  show (Attribute.ofJson? e.2.toJson).map _ = _
  rw [e.2.denotes_toJson.read_eq]
  rfl

theorem denotes_toJson {e : EntitySchema} (hkeys : e.attributes.keys.Nodup) :
    Json.Denotes ofJson? e.toJson e := by
  have hname := Json.denotes_string e.name
  constructor
  · have hattributes :
        (Json.object (e.attributes.entries.map fun (k, a) => (k, a.toJson))).Written := by
      apply Json.Written.object
      intro f hf
      obtain ⟨⟨k, a⟩, -, rfl⟩ := List.mem_map.1 hf
      exact a.denotes_toJson.written
    apply Json.Written.object
    simp [hname.written, hattributes]
  · have hrecord : e.toJson.record? ["name", "attributes"] =
        some [some (.string e.name),
          some (.object (e.attributes.entries.map fun (k, a) => (k, a.toJson)))] := rfl
    rw [ofJson?, hrecord]
    simp only [hname.read_eq, attributes?_object hkeys]
    rfl

end EntitySchema

/-! ## From text to text -/

/-- What is written is read back from its text as it was, whatever the names and texts are.
Enumerations, attributes and schemas are records with their fields in order, types and values are
tagged; the attributes of a schema are an object, with their names in the order of the schema. A
schema is one with its names apart, and a value one without floating point numbers, days and
times. -/
theorem json_reread :
    (∀ e : EnumType, e.toJson.HasFields ["name", "variants"] ∧
        (Json.read? e.toJson.write).bind EnumType.ofJson? = some e) ∧
      (∀ t : ValueType, t.toJson.tagged?.isSome = true ∧
        (Json.read? t.toJson.write).bind ValueType.ofJson? = some t) ∧
      (∀ a : Attribute,
        a.toJson.HasFields ["name", "kind", "collection", "value_type", "element_type"] ∧
        (Json.read? a.toJson.write).bind Attribute.ofJson? = some a) ∧
      (∀ s : EntitySchema, s.attributes.keys.Nodup →
        s.toJson.HasFields ["name", "attributes"] ∧
        (∃ j, s.toJson.field? "attributes" = some j ∧ j.HasFields s.attributes.keys) ∧
        (Json.read? s.toJson.write).bind EntitySchema.ofJson? = some s) ∧
      ∀ v : Value, v.isDiscrete = true → v.toJson.tagged?.isSome = true ∧
        (Json.read? v.toJson.write).bind Value.ofJson? = some v := by
  refine ⟨?_, ?_, ?_, ?_, ?_⟩
  · intro e
    exact ⟨⟨_, rfl, rfl⟩, e.denotes_toJson.reread⟩
  · intro t
    exact ⟨t.tagged?_toJson, t.denotes_toJson.reread⟩
  · intro a
    exact ⟨⟨_, rfl, rfl⟩, a.denotes_toJson.reread⟩
  · intro s hkeys
    have hattributes :
        (Json.object (s.attributes.entries.map fun (k, a) => (k, a.toJson))).HasFields
          s.attributes.keys := by
      refine ⟨_, rfl, ?_⟩
      rw [List.map_map]
      rfl
    exact ⟨⟨_, rfl, rfl⟩, ⟨_, rfl, hattributes⟩, (EntitySchema.denotes_toJson hkeys).reread⟩
  · intro v hv
    exact ⟨v.tagged?_toJson, (Value.denotes_toJson hv).reread⟩

/-- An entity whose attributes are not in the order of their names, some of which need escapes. -/
def quoted : EntitySchema :=
  .ofAttributes "Quoted \"entity\""
    [.elementCollection "zone\x01\n" (.enum ⟨"État\\", ["à\t", ""]⟩),
      .association "owner" "Person" true, .basic "amount" (.custom "Money\x7f😀")]

theorem json_reread_quoted :
    quoted.attributes.keys.Nodup ∧
      (∃ j, quoted.toJson.field? "attributes" = some j ∧
        j.HasFields ["zone\x01\n", "owner", "amount"]) ∧
      (Json.read? quoted.toJson.write).bind EntitySchema.ofJson? = some quoted ∧
      (Value.custom "Money" "1\x1f\"").isDiscrete = true ∧
      (Json.read? (Value.custom "Money" "1\x1f\"").toJson.write).bind Value.ofJson? =
        some (.custom "Money" "1\x1f\"") := by
  obtain ⟨-, -, -, hschema, hvalue⟩ := json_reread
  have hkeys : quoted.attributes.keys.Nodup := EntitySchema.nodup_keys_ofAttributes _ _
  have hdiscrete : (Value.custom "Money" "1\x1f\"").isDiscrete = true := rfl
  obtain ⟨-, hattributes, hreread⟩ := hschema quoted hkeys
  exact ⟨hkeys, hattributes, hreread, hdiscrete, (hvalue _ hdiscrete).2⟩

end FilterQuery
