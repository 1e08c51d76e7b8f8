/-
# FilterQuery.Schema.Attribute -- attributes of entities

An attribute has a name, a kind, a type and, if it is a collection, possibly a type of its
elements. A selector goes on past an attribute when that leads to an entity; which of the two
types says so depends on the kind.
-/

import FilterQuery.Value.Type

namespace FilterQuery

/-- How an attribute relates to the entity that owns it: a scalar, a value object kept inside its
owner, a reference to an entity or to many, or a collection of scalars or value objects. -/
inductive AttributeKind where
  | basic
  | embedded
  | association
  | elementCollection
  deriving Repr, DecidableEq

/-- The text of a kind. -/
def AttributeKind.text : AttributeKind → String
  | basic => "basic"
  | embedded => "embedded"
  | association => "association"
  | elementCollection => "element collection"

/-- An attribute of an entity. -/
structure Attribute where
  name : String
  kind : AttributeKind
  collection : Bool
  valueType : ValueType
  elementType : Option ValueType
  deriving Repr, DecidableEq

namespace Attribute

/-- A scalar attribute. -/
def basic (name : String) (t : ValueType) : Attribute := ⟨name, .basic, false, t, none⟩

/-- A value object of the given entity. -/
def embedded (name entity : String) : Attribute := ⟨name, .embedded, false, .entity entity, none⟩

/-- A reference to the given entity, or a collection of references. -/
def association (name entity : String) (collection : Bool) : Attribute :=
  ⟨name, .association, collection, .entity entity,
    if collection then some (.entity entity) else none⟩

/-- A collection of elements of the given type. -/
def elementCollection (name : String) (t : ValueType) : Attribute :=
  ⟨name, .elementCollection, true, t, some t⟩

/-- The type that decides where a selector goes on to. -/
def targetType? (a : Attribute) : Option ValueType :=
  match a.kind with
  | .basic => none
  | .embedded | .association => some a.valueType
  | .elementCollection => a.elementType

/-- The entity that a selector goes on into, unless the attribute ends a path. -/
def target? (a : Attribute) : Option String :=
  match a.targetType? with
  | some (.entity e) => some e
  | _ => none

/-- The type at which arguments are compared with the attribute. -/
def comparisonType (a : Attribute) : ValueType :=
  match a.kind, a.elementType with
  | .elementCollection, some t => t
  | _, _ => a.valueType

end Attribute

end FilterQuery
