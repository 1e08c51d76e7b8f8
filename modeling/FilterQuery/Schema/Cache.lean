/-
# FilterQuery.Schema.Cache -- remembered attributes

A cache stands between a resolver and what describes attributes. It answers from memory when it
can; an attribute that is found is remembered, one that is not found is asked for again the next
time. Since a remembered attribute is not asked for again, a change of the schema behind it shows
only after the entity has been invalidated.
-/

import FilterQuery.Schema.Attribute
import FilterQuery.Table

namespace FilterQuery

/-- Remembered attributes by entity and name. -/
structure SchemaCache where
  table : Table (String × String) Attribute
  deriving Repr, DecidableEq

/-- What describes attributes: the attribute of an entity with a name. -/
abbrev Describer := String → String → Option Attribute

namespace SchemaCache

/-- Nothing remembered. -/
def empty : SchemaCache := ⟨.empty⟩

/-- The attribute of an entity with a name, from memory or from `describer`; and the cache, which
remembers it. -/
def describe (c : SchemaCache) (describer : Describer) (entity name : String) :
    Option Attribute × SchemaCache :=
  match c.table.get? (entity, name) with
  | some a => (some a, c)
  | none =>
    match describer entity name with
    | some a => (some a, ⟨c.table.put (entity, name) a⟩)
    | none => (none, c)

/-- Forgets the attributes of an entity. -/
def invalidate (c : SchemaCache) (entity : String) : SchemaCache :=
  ⟨⟨c.table.entries.filter fun e => e.1.1 ≠ entity⟩⟩

/-- The number of remembered attributes. -/
def size (c : SchemaCache) : Nat := c.table.size

end SchemaCache

end FilterQuery
