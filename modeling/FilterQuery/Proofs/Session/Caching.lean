/-
# FilterQuery.Proofs.Session.Caching -- remembering does not show

A remembered attribute is not asked for again, so a session may go on with what a schema said once.
It does not as long as the entity is forgotten after each change that does more than add to its
schema (`Settled`). Then resolving and compiling come to the same as in a session without a cache
(`transparent_of_settled`), whatever has been resolved before, with or without success, and however
often the cache has been switched on and off.

The invariant looks ahead: every remembered attribute is what the catalog says now, or the entity is
about to be forgotten (`Accurate`). What is not found is never remembered, so what is added to a
schema cannot come too late.
-/

import FilterQuery.Expression
import FilterQuery.Proofs.Resolve.Arguments
import FilterQuery.Proofs.Resolve.Views
import FilterQuery.Proofs.Session.Steps

namespace FilterQuery

/-! ## Schemas that are added to -/

namespace Catalog

/-- The later catalog says all that the earlier one says of the entity; it may say more. -/
def Retains (later earlier : Catalog) (entity : String) : Prop :=
  ∀ name a, earlier.describe? entity name = some a → later.describe? entity name = some a

theorem Retains.refl (c : Catalog) (entity : String) : c.Retains c entity := fun _ _ h => h

theorem describe?_register (c : Catalog) (e : EntitySchema) (entity name : String) :
    (c.register e).describe? entity name =
      if entity = e.name then e.attribute? name else c.describe? entity name := by
  rw [describe?, schema?, register, Table.get?_put]
  split <;> rfl

/-- Registering a schema keeps what is said of every entity if it keeps what is said of its own. -/
theorem retains_register {c : Catalog} {e : EntitySchema}
    (h : ∀ name a, c.describe? e.name name = some a → e.attribute? name = some a)
    (entity : String) : (c.register e).Retains c entity := by
  intro name a ha
  rw [describe?_register]
  by_cases hentity : entity = e.name
  · rw [if_pos hentity]
    rw [hentity] at ha
    exact h name a ha
  · rwa [if_neg hentity]

theorem retains_register_of_ne {c : Catalog} {e : EntitySchema} {entity : String}
    (h : entity ≠ e.name) : (c.register e).Retains c entity := by
  intro name a ha
  rwa [describe?_register, if_neg h]

end Catalog

namespace Session

variable {C : Type}

/-! ## Histories -/

/-- What can happen to a session: a step is taken, or a schema is registered as it stands, under
whatever names it files its attributes. -/
inductive Act (C : Type) where
  | step (taken : Step C)
  | adopt (e : EntitySchema)

namespace Act

/-- What an act does to the schemas. -/
def onCatalog (c : Catalog) : Act C → Catalog
  | step taken => taken.onCatalog c
  | adopt e => c.register e

/-- The act forgets the attributes of the entity. -/
def Forgets : Act C → String → Prop
  | step taken, entity => taken.Forgets entity
  | adopt _, _ => False

end Act

/-- The session after an act. -/
def next (s : Session C) : Act C → Session C
  | .step taken => s.after taken
  | .adopt e => { s with catalog := s.catalog.register e }

/-- The session after a history. -/
def course (s : Session C) (history : List (Act C)) : Session C := history.foldl next s

/-- Starting from a catalog, each act of the history retains what is said of the entity, or the
entity is forgotten later. -/
def Settled : Catalog → List (Act C) → String → Prop
  | _, [], _ => True
  | c, act :: rest, entity =>
    ((act.onCatalog c).Retains c entity ∨ ∃ later ∈ rest, later.Forgets entity) ∧
      Settled (act.onCatalog c) rest entity

/-- The session without a cache. -/
def bare (s : Session C) : Session C :=
  { s with settings := { s.settings with cacheEnabled := false }, cache := .empty }

/-- Resolving and compiling come to the same as without a cache, condition or failure, and hand over
the same leaves. -/
structure Transparent (s : Session C) : Prop where
  resolve : ∀ n entity, (s.resolve n entity).1 = (s.bare.resolve n entity).1 ∧
    s.handed (.resolve n entity) = s.bare.handed (.resolve n entity)
  compile : ∀ text entity, (s.compile text entity).1 = (s.bare.compile text entity).1 ∧
    s.handed (.compile text entity) = s.bare.handed (.compile text entity)

/-- Whether there is a cache is a setting, but nothing else in resolving looks at it. -/
theorem resolve_bare (s : Session C) (cached : Bool) (n : Node) (entity : String) :
    ((s.resolver cached).plain s.catalog.describe?).resolve n entity =
      (s.bare.resolver false).resolve n entity := by
  refine Resolver.resolve_congr (by rfl) (fun c => ?_) n
  have hconvert : s.bare.settings.convertAll = s.settings.convertAll :=
    funext₂ fun t as => Settings.convertAll_congr (by rfl) (by rfl) t as
  rw [Resolver.comparison_eq_conclude, Resolver.comparison_eq_conclude]
  show _ = ((s.bare.resolver false).path entity c.selector >>= fun x =>
    Run.ofExcept (s.bare.settings.convertAll _ _) >>= _)
  rw [hconvert]
  rfl

/-! ## What an act does to schemas and cache -/

theorem catalog_next (s : Session C) (act : Act C) :
    (s.next act).catalog = act.onCatalog s.catalog := by
  cases act with
  | step taken => exact catalog_after s taken
  | adopt e => rfl

/-- What is remembered after an act has not been forgotten by it, and was remembered before or is
what the catalog says. -/
theorem remembered_next {s : Session C} {act : Act C} {entity name : String} {a : Attribute}
    (h : (s.next act).cache.table.get? (entity, name) = some a) :
    ¬ act.Forgets entity ∧ (s.cache.table.get? (entity, name) = some a ∨
      (s.next act).catalog.describe? entity name = some a) := by
  cases act with
  | step taken => exact remembered_after h
  | adopt e => exact ⟨id, .inl h⟩

/-! ## The invariant of a history -/

/-- Every remembered attribute is what the catalog says, or its entity is about to be forgotten in
the rest of the history. -/
def Accurate (s : Session C) (rest : List (Act C)) : Prop :=
  ∀ entity name a, s.cache.table.get? (entity, name) = some a →
    s.catalog.describe? entity name = some a ∨ ∃ later ∈ rest, later.Forgets entity

namespace Accurate

variable {s : Session C} {act : Act C} {rest : List (Act C)}

/-- Every act of a settled history keeps the invariant. -/
theorem next (h : s.Accurate (act :: rest))
    (hsettled : ∀ entity, Settled s.catalog (act :: rest) entity) : (s.next act).Accurate rest := by
  intro entity name a ha
  obtain ⟨hkept, hbefore | hnow⟩ := remembered_next ha
  · rcases h entity name a hbefore with hsaid | ⟨later, hmem, hforgets⟩
    · obtain ⟨hretains | hlater, -⟩ := hsettled entity
      · rw [catalog_next]
        exact .inl (hretains name a hsaid)
      · exact .inr hlater
    · -- it is not this act that forgets the entity, since the attribute is still there
      rcases List.mem_cons.1 hmem with rfl | hmem
      · exact absurd hforgets hkept
      · exact .inr ⟨later, hmem, hforgets⟩
  · exact .inl hnow

/-- At the end of a settled history, all that is remembered is what the catalog says. -/
theorem course : ∀ {history : List (Act C)} {s : Session C}, s.Accurate history →
    (∀ entity, Settled s.catalog history entity) → (s.course history).Accurate []
  | [], _, h, _ => h
  | act :: rest, s, h, hsettled => by
    have hrest : ∀ entity, Settled (s.next act).catalog rest entity := by
      intro entity
      rw [catalog_next]
      exact (hsettled entity).2
    show ((s.next act).course rest).Accurate []
    exact course (h.next hsettled) hrest

/-- What is seen is then what the catalog says. -/
theorem steady (h : s.Accurate []) (cached : Bool) :
    (s.resolver cached).Steady s.catalog.describe? { cache := s.cache } := by
  intro entity name _
  cases cached with
  | false => rfl
  | true =>
    show (s.cache.table.get? (entity, name)).or (s.catalog.describe? entity name) = _
    cases ha : s.cache.table.get? (entity, name) with
    | none => rfl
    | some a =>
      rcases h entity name a ha with hsaid | ⟨later, hmem, -⟩
      · exact hsaid.symm
      · cases hmem

theorem transparent (h : s.Accurate []) : s.Transparent := by
  have hshows : ∀ n entity,
      (s.resolver s.settings.cacheEnabled).shows { cache := s.cache } n entity =
        (s.bare.resolver false).shows {} n entity := by
    intro n entity
    rw [Resolver.shows_eq_plain (h.steady _), Resolver.shows, Resolver.shows, resolve_bare]
  have hresolve : ∀ n entity, (s.resolve n entity).1 = (s.bare.resolve n entity).1 ∧
      s.handed (.resolve n entity) = s.bare.handed (.resolve n entity) :=
    fun n entity => Prod.ext_iff.1 (hshows n entity)
  refine ⟨hresolve, fun text entity => ?_⟩
  -- reading a text has nothing to do with the cache
  have hparse : s.bare.parse text = s.parse text := rfl
  rw [Session.compile, Session.compile, handed, handed, hparse]
  cases s.parse text with
  | ok n => exact hresolve n entity
  | error f => exact ⟨rfl, rfl⟩

end Accurate

/-! ## Sessions with and without a cache -/

/-- The cache does not show. At the end of a history that is settled for every entity, resolving and
compiling come to the same as in the session without a cache. For a call within a longer history
that is told of the part before it. -/
theorem transparent_of_settled (builder : ConditionBuilder C) (settings : Settings C)
    (catalog : Catalog) (history : List (Act C))
    (hsettled : ∀ entity, Settled catalog history entity) :
    (course { builder, settings, catalog } history).Transparent := by
  have hstart : Accurate ({ builder, settings, catalog } : Session C) history :=
    fun _ _ _ h => nomatch h
  exact (hstart.course hsettled).transparent

/-- People with an age of some type. -/
def people (age : ValueType) : Act C := .step (.register "Person" [.basic "age" age])

/-- A filter for an age. -/
def aged (age : String) : Node := .comparison ⟨⟨"==", [], false⟩, "age", [age]⟩

/-- Ages are remembered as numbers, become texts, are remembered again by a filter that fails, and
then people get an address. -/
def revised : List (Act Expression) :=
  [people (.int .i32), .step (.resolve (aged "30") "Person"), people .string,
    .step (.invalidate "Person"),
    .step (.resolve
      (.logical .and .and [aged "young", .comparison ⟨⟨"==", [], false⟩, "pin", ["1"]⟩]) "Person"),
    .adopt (.ofAttributes "Person" [.basic "age" .string, .embedded "address" "Address"]),
    .adopt (.ofAttributes "Address" [.basic "city" .string])]

theorem settled_revised (entity : String) : Settled .empty revised entity := by
  have hsame : ∀ c : Catalog, c.Retains c entity := fun c => .refl c entity
  have hnew : ((people (.int .i32) : Act Expression).onCatalog .empty).Retains .empty entity := by
    refine Catalog.retains_register ?_ entity
    intro name a h
    cases h
  refine ⟨.inl hnew, .inl (hsame _), ?_, .inl (hsame _), .inl (hsame _), .inl ?_, .inl ?_, trivial⟩
  · -- another type of age: people are forgotten in the next act
    by_cases h : entity = "Person"
    · exact .inr ⟨.step (.invalidate "Person"), List.mem_cons_self, h⟩
    · exact .inl (Catalog.retains_register_of_ne h)
  · -- the address is new, the age is as it was
    refine Catalog.retains_register ?_ entity
    intro name a h
    change (if "age" = name then some (Attribute.basic "age" .string) else none) = some a at h
    split at h
    · rename_i hname
      cases hname
      exact h
    · cases h
  · -- nothing has been said of addresses before
    refine Catalog.retains_register ?_ entity
    intro name a h
    cases h

theorem transparent_of_settled_revised :
    (∀ entity, Settled .empty revised entity) ∧
      (course { builder := Expression.builder } revised).cache.size = 1 ∧
      (course { builder := Expression.builder } revised).Transparent :=
  ⟨settled_revised, by decide +kernel,
    transparent_of_settled Expression.builder {} .empty revised settled_revised⟩

/-- Without forgetting, ages are still read as numbers. -/
example :
    let s := course { builder := Expression.builder } (revised.take 3)
    (s.resolve (aged "young") "Person").1.isOk = false ∧
      (s.bare.resolve (aged "young") "Person").1.isOk = true := by
  decide +kernel

end Session

end FilterQuery
