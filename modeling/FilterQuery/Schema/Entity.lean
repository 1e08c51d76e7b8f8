/-
# FilterQuery.Schema.Entity -- schemas of entities and their catalog

An entity schema lists attributes by name, in the order of their declaration; a name that is
declared again keeps its place and takes the later attribute. A catalog holds entity schemas by
the names of their entities.
-/

import FilterQuery.Error
import FilterQuery.Schema.Attribute
import FilterQuery.Table

namespace FilterQuery

/-- The attributes of an entity. -/
structure EntitySchema where
  name : String
  attributes : Table String Attribute
  deriving Repr, DecidableEq

namespace EntitySchema

/-- The schema with the given attributes. -/
def ofAttributes (name : String) (attributes : List Attribute) : EntitySchema :=
  ⟨name, .ofList (attributes.map fun a => (a.name, a))⟩

/-- The attribute of a name. -/
def attribute? (e : EntitySchema) (name : String) : Option Attribute := e.attributes.get? name

end EntitySchema

/-- The schemas of some entities. -/
structure Catalog where
  table : Table String EntitySchema
  deriving Repr, DecidableEq

namespace Catalog

/-- No schemas. -/
def empty : Catalog := ⟨.empty⟩

/-- The catalog with a schema, in place of any before it for the same entity. -/
def register (c : Catalog) (e : EntitySchema) : Catalog := ⟨c.table.put e.name e⟩

/-- The catalog of the given schemas. -/
def ofList (es : List EntitySchema) : Catalog := es.foldl register empty

/-- Removes the schema of an entity; gives it and what is left. -/
def unregister (c : Catalog) (entity : String) : Option EntitySchema × Catalog :=
  (c.table.get? entity, ⟨c.table.erase entity⟩)

/-- The schema of an entity. -/
def schema? (c : Catalog) (entity : String) : Option EntitySchema := c.table.get? entity

/-- The schema of an entity, which must be there. -/
def require (c : Catalog) (entity : String) : Except Failure EntitySchema :=
  match c.schema? entity with
  | some e => .ok e
  | none => .error (.unregisteredEntity entity)

/-- Whether there is a schema of the entity. -/
def contains (c : Catalog) (entity : String) : Bool := c.table.contains entity

/-- The attribute of an entity. -/
def describe? (c : Catalog) (entity name : String) : Option Attribute :=
  (c.schema? entity).bind (·.attribute? name)

/-- The names of the entities in ascending order. -/
def entities (c : Catalog) : List String := c.table.keys.mergeSort fun a b => decide (a ≤ b)

/-- The number of entities. -/
def size (c : Catalog) : Nat := c.table.size

end Catalog

end FilterQuery
