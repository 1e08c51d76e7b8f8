/-
# FilterQuery.Schema.Codec -- the JSON form of schemas

An attribute is a record; a missing type of elements counts as none. The attributes of an entity
are an object in their order; a name that is repeated there keeps its place and takes the later
attribute.
-/

import FilterQuery.Schema.Entity
import FilterQuery.Value.Codec

namespace FilterQuery

namespace AttributeKind

/-- The tag of a kind. -/
def tag : AttributeKind → String
  | basic => "Basic"
  | embedded => "Embedded"
  | association => "Association"
  | elementCollection => "ElementCollection"

/-- The tagged form of a kind. -/
def toJson (k : AttributeKind) : Json := .string k.tag

/-- Reads the tagged form of a kind. -/
def ofJson? (j : Json) : Option AttributeKind :=
  match j.tagged? with
  | some (tag, carried) =>
    if Json.carriesNothing carried then
      [basic, embedded, association, elementCollection].find? (·.tag == tag)
    else none
  | none => none

end AttributeKind

namespace Attribute

/-- The record of an attribute. -/
def toJson (a : Attribute) : Json :=
  .object [("name", .string a.name), ("kind", a.kind.toJson), ("collection", .bool a.collection),
    ("value_type", a.valueType.toJson), ("element_type", .ofOption ValueType.toJson a.elementType)]

/-- Reads a type that may be missing. -/
def optionalType? : Option Json → Option (Option ValueType)
  | none | some .null => some none
  | some j => (ValueType.ofJson? j).map some

/-- Reads the record of an attribute. -/
def ofJson? (j : Json) : Option Attribute :=
  match j.record? ["name", "kind", "collection", "value_type", "element_type"] with
  | some [some name, some kind, some collection, some valueType, elementType] => do
    return ⟨← name.string?, ← AttributeKind.ofJson? kind, ← collection.bool?,
      ← ValueType.ofJson? valueType, ← optionalType? elementType⟩
  | _ => none

end Attribute

namespace EntitySchema

/-- The record of an entity. -/
def toJson (e : EntitySchema) : Json :=
  .object [("name", .string e.name),
    ("attributes", .object (e.attributes.entries.map fun (k, a) => (k, a.toJson)))]

/-- Reads attributes by name. -/
def attributes? : Json → Option (Table String Attribute)
  | .object fields =>
    (fields.mapM fun (f : String × Json) => (Attribute.ofJson? f.2).map fun a => (f.1, a)).map
      Table.ofList
  | _ => none

/-- Reads the record of an entity. -/
def ofJson? (j : Json) : Option EntitySchema :=
  match j.record? ["name", "attributes"] with
  | some [some name, some attributes] => do
    return ⟨← name.string?, ← attributes? attributes⟩
  | _ => none

end EntitySchema

end FilterQuery
