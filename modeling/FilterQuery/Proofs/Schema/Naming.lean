/-
# FilterQuery.Proofs.Schema.Naming -- attributes are found under their names

A schema files each attribute under the name that the attribute carries, and a cache remembers it
under the name by which it was found. Both are kept by all that a session does with schemas and
its cache, so an attribute found under a name carries that name. For a cache this rests on where
its attributes come from: it takes in what is described to it and nothing else (`get?_describe`).
-/

import FilterQuery.Schema.Cache
import FilterQuery.Schema.Entity

namespace FilterQuery

/-! ## What tables hold -/

namespace Table

variable {κ α : Type} [DecidableEq κ]

/-- Of entries that are kept for their keys, the keys that are kept have the values they had. -/
theorem valueAt_filter_key (p : κ → Bool) (k : κ) (es : List (κ × α)) :
    valueAt k (es.filter fun e => p e.1) = if p k then valueAt k es else none := by
  induction es with
  | nil => simp [valueAt]
  | cons e r ih => grind [valueAt]

/-- A value that is put in with others is at the key with which it came. -/
theorem mem_of_get?_foldl_put {k : κ} {v : α} (pairs : List (κ × α)) :
    ∀ t : Table κ α, (pairs.foldl (fun t p => t.put p.1 p.2) t).get? k = some v →
      (k, v) ∈ pairs ∨ t.get? k = some v := by
  induction pairs with
  | nil =>
    intro t h
    exact .inr h
  | cons p r ih =>
    intro t h
    rcases ih _ h with h | h
    · exact .inl (List.mem_cons_of_mem p h)
    · rw [get?_put] at h
      split at h
      · rename_i hk
        cases h
        rw [hk]
        exact .inl List.mem_cons_self
      · exact .inr h

end Table

/-! ## Describers and caches -/

/-- What describes attributes finds them under their names. -/
def Describer.Named (d : Describer) : Prop :=
  ∀ entity name a, d entity name = some a → a.name = name

/-- Attributes are remembered under their names. -/
def SchemaCache.Named (c : SchemaCache) : Prop :=
  ∀ entity name a, c.table.get? (entity, name) = some a → a.name = name

namespace SchemaCache

variable {c : SchemaCache} {d : Describer} {entity name : String} {a : Attribute}

theorem named_empty : empty.Named := by
  intro entity name a h
  cases h

/-- An answer comes from memory or from the describer. -/
theorem describe_eq_some (h : (c.describe d entity name).1 = some a) :
    c.table.get? (entity, name) = some a ∨ d entity name = some a := by
  rw [describe] at h
  split at h
  · rename_i a' ha
    cases h
    exact .inl ha
  · split at h
    · rename_i a' ha
      cases h
      exact .inr ha
    · cases h

/-- What is remembered after asking was remembered before, or is described. -/
theorem get?_describe {entity' name' : String}
    (h : (c.describe d entity name).2.table.get? (entity', name') = some a) :
    c.table.get? (entity', name') = some a ∨ d entity' name' = some a := by
  rw [describe] at h
  split at h
  · exact .inl h
  · split at h
    · -- one attribute has come in, under the name by which it was described
      rename_i a' ha
      rw [Table.get?_put] at h
      split at h
      · rename_i hkey
        cases hkey
        cases h
        exact .inr ha
      · exact .inl h
    · exact .inl h

/-- What is remembered after an entity has been forgotten is of another one. -/
theorem get?_invalidate {forgotten : String}
    (h : (c.invalidate forgotten).table.get? (entity, name) = some a) :
    entity ≠ forgotten ∧ c.table.get? (entity, name) = some a := by
  rw [invalidate, Table.get?,
    Table.valueAt_filter_key fun k : String × String => k.1 ≠ forgotten] at h
  split at h
  · rename_i hne
    exact ⟨of_decide_eq_true hne, h⟩
  · cases h

theorem named_describe (hc : c.Named) (hd : d.Named) : (c.describe d entity name).2.Named := by
  intro entity' name' a h
  rcases get?_describe h with h | h
  · exact hc _ _ _ h
  · exact hd _ _ _ h

end SchemaCache

/-! ## Schemas and catalogs -/

/-- The schemas file attributes under their names. -/
def Catalog.Named (c : Catalog) : Prop :=
  ∀ entity e, c.schema? entity = some e → ∀ name a, e.attribute? name = some a → a.name = name

/-- A schema of given attributes finds them under their names. -/
theorem EntitySchema.name_of_attribute? {entity name : String} {attributes : List Attribute}
    {a : Attribute} (h : (ofAttributes entity attributes).attribute? name = some a) :
    a.name = name := by
  rcases Table.mem_of_get?_foldl_put _ _ h with h | h
  · obtain ⟨a', -, ha⟩ := List.mem_map.1 h
    cases ha
    rfl
  · cases h

namespace Catalog

variable {c : Catalog}

theorem named_empty : empty.Named := by
  intro entity e h
  cases h

theorem Named.describer (h : c.Named) : Describer.Named c.describe? := by
  intro entity name a ha
  obtain ⟨e, he, ha⟩ := Option.bind_eq_some_iff.1 ha
  exact h entity e he name a ha

theorem Named.register (h : c.Named) (entity : String) (attributes : List Attribute) :
    (c.register (.ofAttributes entity attributes)).Named := by
  intro entity' e he name a ha
  rw [schema?, Catalog.register, Table.get?_put] at he
  split at he
  · cases he
    exact EntitySchema.name_of_attribute? ha
  · exact h entity' e he name a ha

theorem Named.unregister (h : c.Named) (entity : String) : (c.unregister entity).2.Named := by
  intro entity' e he name a ha
  rw [schema?, Catalog.unregister, Table.get?_erase] at he
  split at he
  · cases he
  · exact h entity' e he name a ha

end Catalog

end FilterQuery
