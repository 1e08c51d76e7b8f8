/-
# FilterQuery.Schema.Family -- registering entities with all they refer to

A family is a list of entity types. Each has a schema and names the types that it depends on.
Registering a type puts its schema into the catalog, unless there is one for that entity already,
and then registers what it depends on, one after the other and each with its own dependencies
before the next. A type whose entity is already there is left out together with its dependencies,
which is what ends the registration of types that refer to each other in a circle.

The types still to be registered form a list. A step either drops its first type or registers it
and puts its dependencies in front, and then the family has one entity less that is absent; so
registration ends.
-/

import FilterQuery.Schema.Entity

namespace FilterQuery

/-- An entity type. Other types refer to it by its key, while the entity is named by the schema; it
refers to the types that it depends on in the order of registration. -/
structure EntityType where
  key : String
  schema : EntitySchema
  dependencies : List String
  deriving Repr, DecidableEq

/-- A family of entity types. -/
abbrev EntityFamily := List EntityType

namespace EntityFamily

/-- The type with the given key. -/
def type? (f : EntityFamily) (key : String) : Option EntityType := f.find? (·.key == key)

/-- How many types of the family have no schema in the catalog. -/
def absent (f : EntityFamily) (c : Catalog) : Nat :=
  f.countP fun t => !c.contains t.schema.name

theorem contains_register (c : Catalog) (e : EntitySchema) (name : String) :
    (c.register e).contains name = (name == e.name || c.contains name) := by
  simp only [Catalog.contains, Catalog.register, Table.contains, Table.get?_put]
  by_cases h : name = e.name <;> simp [h]

/-- Registering an absent type of the family makes one type less absent, at the least. -/
theorem absent_register_lt {f : EntityFamily} {c : Catalog} {t : EntityType} (ht : t ∈ f)
    (hc : c.contains t.schema.name = false) :
    f.absent (c.register t.schema) < f.absent c := by
  obtain ⟨l, r, rfl⟩ := List.append_of_mem ht
  have hle : ∀ g : EntityFamily, g.absent (c.register t.schema) ≤ g.absent c := by
    intro g
    apply List.countP_mono_left
    intro u _ hu
    simp only [contains_register, Bool.not_or, Bool.and_eq_true] at hu
    exact hu.2
  have hl := hle l
  have hr := hle r
  simp only [absent, List.countP_append, List.countP_cons, contains_register, hc] at *
  simp only [BEq.rfl, Bool.true_or, Bool.not_true, Bool.false_eq_true, if_false,
    Bool.not_false, if_true] at *
  omega

/-- Registers the types with the given keys, one after the other. Keys of no type are left
out. -/
def registerAll (f : EntityFamily) (c : Catalog) : List String → Catalog
  | [] => c
  | k :: ks =>
    match h : f.type? k with
    | none => registerAll f c ks
    | some t =>
      if hc : c.contains t.schema.name then registerAll f c ks
      else
        have := absent_register_lt (List.mem_of_find?_eq_some h) (by simpa using hc)
        registerAll f (c.register t.schema) (t.dependencies ++ ks)
termination_by ks => (f.absent c, ks.length)

/-- Registers the type with the given key and all that it refers to. -/
def register (f : EntityFamily) (c : Catalog) (key : String) : Catalog := f.registerAll c [key]

end EntityFamily

end FilterQuery
