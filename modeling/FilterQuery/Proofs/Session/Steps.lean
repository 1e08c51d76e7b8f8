/-
# FilterQuery.Proofs.Session.Steps -- a session step by step

A session goes on by changes of its settings, of its schemas and of what it remembers, and by
resolving filters. `Session.after` is one step, `Session.run` a row of them. `Session.handed` says
which leaves a step hands over, to the session's own builder or to a custom predicate.

What a step does is said once for each part of a session: a change touches the settings only
(`after_change`), schemas come and go by their own steps (`catalog_after`), and the cache takes in
what the catalog says (`remembered_after`).
-/

import FilterQuery.Proofs.Resolve.Lifting
import FilterQuery.Proofs.Schema.Naming
import FilterQuery.Session

namespace FilterQuery

/-! ## What a cache takes in -/

/-- All that the cache holds was held by another, or is described. -/
def SchemaCache.Within (c k : SchemaCache) (d : Describer) : Prop :=
  ∀ entity name a, c.table.get? (entity, name) = some a →
    k.table.get? (entity, name) = some a ∨ d entity name = some a

theorem SchemaCache.within_describe {c k : SchemaCache} {d : Describer} (h : c.Within k d)
    (entity name : String) : (c.describe d entity name).2.Within k d := by
  intro entity' name' a ha
  rcases get?_describe ha with ha | ha
  · exact h entity' name' a ha
  · exact .inr ha

namespace Resolver

open Run

variable {C : Type} {r : Resolver C} {k : SchemaCache}

theorem ensures_within (entity name : String) :
    Ensures (fun t => t.cache.Within k r.describer) (r.describe entity name) fun _ => True := by
  intro t ht
  refine ⟨?_, fun _ _ => trivial⟩
  rw [describe]
  cases r.cached with
  | false => exact ht
  | true => exact SchemaCache.within_describe ht entity name

theorem within_path (entity selector : String) :
    ((r.path entity selector).exec { cache := k }).2.cache.Within k r.describer := by
  have hstart : k.Within k r.describer := fun _ _ _ h => .inl h
  exact (ensures_path_of_describe ensures_within entity selector { cache := k } hstart).1

theorem within_resolve (n : Node) (entity : String) :
    ((r.resolve n entity).exec { cache := k }).2.cache.Within k r.describer := by
  have hstart : k.Within k r.describer := fun _ _ _ h => .inl h
  have hcomparison : ∀ c ∈ n.comparisons, Ensures (fun t => t.cache.Within k r.describer)
      (r.comparison entity c) fun _ => True := by
    intro c _
    refine ensures_comparison_of (ensures_path_of_describe ensures_within entity c.selector) ?_
    -- a leaf that is handed over leaves the cache as it is
    intro _ _ _ _ t ht
    exact ht
  exact (ensures_resolve_of hcomparison { cache := k } hstart).1

end Resolver

namespace Session

variable {C : Type}

/-! ## Steps -/

/-- What can be done with a session. Attributes can be forgotten, those of an entity or all, and the
path of a selector can be asked for, with a cache or without. -/
inductive Step (C : Type) where
  | change (c : Settings.Change C)
  | register (entity : String) (attributes : List Attribute)
  | unregister (entity : String)
  | invalidate (entity : String)
  | forget
  | path (entity selector : String) (cached : Bool)
  | resolve (n : Node) (entity : String)
  | compile (text entity : String)

/-- The session after a step. -/
def after (s : Session C) : Step C → Session C
  | .change c => (s.change c).2
  | .register entity attributes =>
    { s with catalog := s.catalog.register (.ofAttributes entity attributes) }
  | .unregister entity => { s with catalog := (s.catalog.unregister entity).2 }
  | .invalidate entity => { s with cache := s.cache.invalidate entity }
  | .forget => { s with cache := .empty }
  | .path entity selector cached => (s.path entity selector cached).2
  | .resolve n entity => (s.resolve n entity).2
  | .compile text entity => (s.compile text entity).2

/-- The session after some steps. -/
def run (s : Session C) (steps : List (Step C)) : Session C := steps.foldl after s

/-- What a run leaves behind when it starts with what the session remembers. -/
def trace {α : Type} (s : Session C) (run : Run α) : Trace := (run.exec { cache := s.cache }).2

/-- The trace of resolving a tree. -/
def resolving (s : Session C) (n : Node) (entity : String) : Trace :=
  s.trace ((s.resolver s.settings.cacheEnabled).resolve n entity)

/-- The leaves that a step hands over, whether it fails afterwards or not. -/
def handed (s : Session C) : Step C → List Construction
  | .path entity selector cached => (s.trace ((s.resolver cached).path entity selector)).built
  | .resolve n entity => (s.resolving n entity).built
  | .compile text entity =>
    match s.parse text with
    | .ok n => (s.resolving n entity).built
    | .error _ => []
  | _ => []

/-! ## What a step does -/

/-- A change touches nothing but the settings. -/
theorem after_change (s : Session C) (c : Settings.Change C) :
    s.after (.change c) = { s with settings := (s.after (.change c)).settings } := by
  show (s.change c).2 = { s with settings := (s.change c).2.settings }
  rw [change]
  split <;> rfl

/-- Compiling a text that can be read is resolving its tree. -/
theorem compile_of_ok {s : Session C} {text entity : String} {n : Node}
    (h : s.parse text = .ok n) : s.after (.compile text entity) = s.after (.resolve n entity) ∧
      s.handed (.compile text entity) = s.handed (.resolve n entity) := by
  simp only [after, handed, compile, h, and_self]

/-- Compiling any other text does nothing. -/
theorem compile_of_error {s : Session C} {text entity : String} {f : Failure}
    (h : s.parse text = .error f) :
    s.after (.compile text entity) = s ∧ s.handed (.compile text entity) = [] := by
  simp only [after, handed, compile, h, and_self]

/-- What a step does to the schemas. -/
def Step.onCatalog (c : Catalog) : Step C → Catalog
  | register entity attributes => c.register (.ofAttributes entity attributes)
  | unregister entity => (c.unregister entity).2
  | _ => c

/-- The step forgets the attributes of the entity, by its name or with all others. -/
def Step.Forgets : Step C → String → Prop
  | invalidate forgotten, entity => entity = forgotten
  | forget, _ => True
  | _, _ => False

theorem catalog_after (s : Session C) (step : Step C) :
    (s.after step).catalog = step.onCatalog s.catalog := by
  cases step with
  | change c =>
    rw [after_change]
    rfl
  | compile text entity =>
    cases h : s.parse text with
    | ok n =>
      rw [(compile_of_ok h).1]
      rfl
    | error f =>
      rw [(compile_of_error h).1]
      rfl
  | _ => rfl

/-- What is remembered after a step has not been forgotten by it, and was remembered before or is
what the catalog says. -/
theorem remembered_after {s : Session C} {step : Step C} {entity name : String} {a : Attribute}
    (h : (s.after step).cache.table.get? (entity, name) = some a) :
    ¬ step.Forgets entity ∧ (s.cache.table.get? (entity, name) = some a ∨
      (s.after step).catalog.describe? entity name = some a) := by
  have hresolve : ∀ n root, (s.after (.resolve n root)).cache.Within s.cache s.catalog.describe? :=
    fun n root => Resolver.within_resolve (r := s.resolver s.settings.cacheEnabled) n root
  rw [catalog_after]
  cases step with
  | change c =>
    rw [after_change] at h
    exact ⟨id, .inl h⟩
  | invalidate forgotten =>
    obtain ⟨hne, h⟩ := SchemaCache.get?_invalidate h
    exact ⟨hne, .inl h⟩
  | forget => cases h
  | path root selector cached =>
    have hpath : (s.after (.path root selector cached)).cache.Within s.cache s.catalog.describe? :=
      Resolver.within_path (r := s.resolver cached) root selector
    exact ⟨id, hpath entity name a h⟩
  | resolve n root => exact ⟨id, hresolve n root entity name a h⟩
  | compile text root =>
    cases hp : s.parse text with
    | ok n =>
      rw [(compile_of_ok hp).1] at h
      exact ⟨id, hresolve n root entity name a h⟩
    | error f =>
      rw [(compile_of_error hp).1] at h
      exact ⟨id, .inl h⟩
  | _ => exact ⟨id, .inl h⟩

end Session

end FilterQuery
