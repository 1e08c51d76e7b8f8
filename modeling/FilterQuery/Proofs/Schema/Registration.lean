/-
# FilterQuery.Proofs.Schema.Registration -- what registering a type leaves behind

Registering goes over a list of keys that are still to be done. What it has done so far is told with
that list in view (`EntityFamily.Accounts`): each schema that has come in is the one of a type of
the family, and whatever that type depends on is in the catalog, or still on the list. The list runs
empty in the end, and then nothing that came in depends on a type whose entity is missing.

A type whose entity is there already is left out together with what it depends on. The invariant
bears this, since it asks of a dependency only that its entity is there.
-/

import FilterQuery.Schema.Family

namespace FilterQuery

namespace Catalog

theorem schema?_register (c : Catalog) (e : EntitySchema) (name : String) :
    (c.register e).schema? name = if name = e.name then some e else c.schema? name :=
  Table.get?_put c.table e.name name e

/-- An entity is there if it has a schema. -/
theorem contains_of_schema? {c : Catalog} {name : String} {e : EntitySchema}
    (h : c.schema? name = some e) : c.contains name = true := by
  rw [schema?] at h
  rw [contains, Table.contains, h]
  rfl

theorem exists_schema?_of_contains {c : Catalog} {name : String} (h : c.contains name = true) :
    ∃ e, c.schema? name = some e :=
  Option.isSome_iff_exists.1 h

end Catalog

namespace EntityFamily

variable {f : EntityFamily} {c before : Catalog} {k name : String} {ks : List String}
  {e : EntitySchema} {t : EntityType}

/-! ## The steps -/

theorem registerAll_nil (f : EntityFamily) (c : Catalog) : f.registerAll c [] = c := by
  rw [registerAll]

theorem registerAll_unknown (hk : f.type? k = none) :
    f.registerAll c (k :: ks) = f.registerAll c ks := by
  rw [registerAll]
  split
  · rfl
  · rename_i t ht
    rw [hk] at ht
    cases ht

theorem registerAll_present (hk : f.type? k = some t) (hc : c.contains t.schema.name = true) :
    f.registerAll c (k :: ks) = f.registerAll c ks := by
  rw [registerAll]
  split
  · rfl
  · rename_i u hu
    rw [hk] at hu
    cases hu
    rw [dif_pos hc]

theorem registerAll_absent (hk : f.type? k = some t) (hc : ¬c.contains t.schema.name = true) :
    f.registerAll c (k :: ks) = f.registerAll (c.register t.schema) (t.dependencies ++ ks) := by
  rw [registerAll]
  split
  · rename_i hu
    rw [hk] at hu
    cases hu
  · rename_i u hu
    rw [hk] at hu
    cases hu
    rw [dif_neg hc]

/-- The entity of the type with the key is there, if there is such a type. -/
def Holds (f : EntityFamily) (c : Catalog) (key : String) : Prop :=
  ∀ t, f.type? key = some t → c.contains t.schema.name = true

/-- What both kinds of steps keep holds when the list has run empty. A step takes the first key off
the list, for it holds already, or for its type comes in and puts its dependencies in front. -/
theorem registerAll_invariant {I : List String → Catalog → Prop}
    (hdrop : ∀ c k ks, f.Holds c k → I (k :: ks) c → I ks c)
    (hregister : ∀ c k ks t, f.type? k = some t → ¬c.contains t.schema.name = true →
      I (k :: ks) c → I (t.dependencies ++ ks) (c.register t.schema))
    (h : I ks c) : I [] (f.registerAll c ks) := by
  induction c, ks using registerAll.induct f with
  | case1 c =>
    rw [registerAll_nil]
    exact h
  | case2 c k ks hk ih =>
    rw [registerAll_unknown hk]
    apply ih
    apply hdrop c k ks _ h
    intro u hu
    rw [hk] at hu
    cases hu
  | case3 c k ks t hk hc ih =>
    rw [registerAll_present hk hc]
    apply ih
    apply hdrop c k ks _ h
    intro u hu
    rw [hk] at hu
    cases hu
    exact hc
  | case4 c k ks t hk hc _ ih =>
    rw [registerAll_absent hk hc]
    exact ih (hregister c k ks t hk hc h)

/-! ## What stays -/

/-- Registering an absent entity leaves the schemas that are there. -/
theorem schema?_register_of_absent (hc : ¬c.contains t.schema.name = true)
    (h : c.schema? name = some e) : (c.register t.schema).schema? name = some e := by
  have hne : name ≠ t.schema.name := by
    rintro rfl
    exact hc (Catalog.contains_of_schema? h)
  rw [Catalog.schema?_register, if_neg hne]
  exact h

/-- A schema that is there stays as it is. -/
theorem schema?_registerAll (h : c.schema? name = some e) :
    (f.registerAll c ks).schema? name = some e := by
  apply registerAll_invariant (I := fun _ c => c.schema? name = some e) _ _ h
  · intro c k ks _ h
    exact h
  · intro c k ks t _ hc h
    exact schema?_register_of_absent hc h

/-- An entity that is there stays there. -/
theorem contains_registerAll (h : c.contains name = true) :
    (f.registerAll c ks).contains name = true := by
  obtain ⟨e, he⟩ := Catalog.exists_schema?_of_contains h
  exact Catalog.contains_of_schema? (schema?_registerAll he)

/-! ## What comes in -/

/-- The first key on the list is done by a step. -/
theorem holds_registerAll_head (f : EntityFamily) (c : Catalog) (k : String) (ks : List String) :
    f.Holds (f.registerAll c (k :: ks)) k := by
  intro t ht
  by_cases hc : c.contains t.schema.name = true
  · exact contains_registerAll hc
  · rw [registerAll_absent ht hc]
    apply contains_registerAll
    rw [contains_register, BEq.rfl, Bool.true_or]

/-- The schema was there before, or is the one of a type all of whose dependencies are in the
catalog or on the list. -/
def Accounted (f : EntityFamily) (before : Catalog) (ks : List String) (c : Catalog)
    (name : String) (e : EntitySchema) : Prop :=
  before.schema? name = some e ∨
    ∃ t ∈ f, t.schema = e ∧ e.name = name ∧ ∀ k ∈ t.dependencies, k ∈ ks ∨ f.Holds c k

/-- All schemas of the catalog are accounted for. -/
def Accounts (f : EntityFamily) (before : Catalog) (ks : List String) (c : Catalog) : Prop :=
  ∀ name e, c.schema? name = some e → f.Accounted before ks c name e

/-- A schema stays accounted for when the list gets shorter by what comes into the catalog. -/
theorem Accounted.mono {ks' : List String} {c' : Catalog} (h : f.Accounted before ks c name e)
    (hlist : ∀ k ∈ ks, k ∈ ks' ∨ f.Holds c' k) (hholds : ∀ k, f.Holds c k → f.Holds c' k) :
    f.Accounted before ks' c' name e := by
  rcases h with hbefore | ⟨t, ht, hschema, hname, hall⟩
  · exact .inl hbefore
  · refine .inr ⟨t, ht, hschema, hname, ?_⟩
    intro k hk
    rcases hall k hk with hk | hk
    · exact hlist k hk
    · exact .inr (hholds k hk)

theorem Accounts.start (f : EntityFamily) (c : Catalog) (ks : List String) :
    f.Accounts c ks c := by
  intro name e h
  exact .inl h

/-- A key that needs no further step can be taken from the list. -/
theorem Accounts.drop (h : f.Accounts before (k :: ks) c) (hk : f.Holds c k) :
    f.Accounts before ks c := by
  intro name e he
  apply (h name e he).mono
  · intro l hl
    rcases List.mem_cons.1 hl with rfl | hl
    · exact .inr hk
    · exact .inl hl
  · intro l hl
    exact hl

/-- A type that comes in puts its dependencies on the list. -/
theorem Accounts.register (h : f.Accounts before (k :: ks) c) (hk : f.type? k = some t) :
    f.Accounts before (t.dependencies ++ ks) (c.register t.schema) := by
  have hkept : ∀ l, f.Holds c l → f.Holds (c.register t.schema) l := by
    intro l hl u hu
    rw [contains_register, hl u hu, Bool.or_true]
  have hthis : f.Holds (c.register t.schema) k := by
    intro u hu
    rw [hk] at hu
    cases hu
    rw [contains_register, BEq.rfl, Bool.true_or]
  intro name e he
  rw [Catalog.schema?_register] at he
  split at he
  · -- the schema that comes in: what its type depends on is on the list
    rename_i hname
    cases he
    refine .inr ⟨t, List.mem_of_find?_eq_some hk, rfl, hname.symm, ?_⟩
    intro l hl
    exact .inl (List.mem_append_left ks hl)
  · -- a schema that was there: only the key that has been done leaves the list
    apply (h name e he).mono _ hkept
    intro l hl
    rcases List.mem_cons.1 hl with rfl | hl
    · exact .inr hthis
    · exact .inl (List.mem_append_right t.dependencies hl)

/-- When the list has run empty, each schema that came in is the one of a type whose dependencies
are there. -/
theorem Accounts.registerAll (h : f.Accounts before ks c) :
    f.Accounts before [] (f.registerAll c ks) := by
  apply registerAll_invariant (I := f.Accounts before) _ _ h
  · intro c k ks hk h
    exact h.drop hk
  · intro c k ks t hk _ h
    exact h.register hk

/-- What is registered from an empty catalog is the schema of a type whose dependencies are
registered with it. -/
theorem of_schema?_register_empty {key : String}
    (h : (f.register .empty key).schema? name = some e) :
    ∃ t ∈ f, t.schema = e ∧ e.name = name ∧
      ∀ k ∈ t.dependencies, f.Holds (f.register .empty key) k := by
  rcases (Accounts.start f .empty [key]).registerAll name e h with
    hempty | ⟨t, ht, hschema, hname, hall⟩
  · cases hempty
  · refine ⟨t, ht, hschema, hname, ?_⟩
    intro k hk
    rcases hall k hk with hnil | hholds
    · cases hnil
    · exact hholds

/-- The type itself is registered. -/
theorem holds_register (f : EntityFamily) (c : Catalog) (key : String) :
    f.Holds (f.register c key) key :=
  holds_registerAll_head f c key []

end EntityFamily

end FilterQuery
