/-
# FilterQuery.Proofs.Resolve.Access -- resolving uses only what access lists allow

A selector is followed by names, but a path holds attributes, and an attribute carries a name of
its own. So two things have to be shown of each step: the name has been checked on the entity that
owns it (`Resolver.enter`), and the attribute found under a name is called that, also when it is
remembered (`Describer.Named`, `SchemaCache.Named`). Then every leaf that a run hands over has a
path that the access lists allow throughout, whether the run fails in the end or not
(`Resolver.ensures_resolve`).
-/

import FilterQuery.Proofs.Resolve.Lifting
import FilterQuery.Proofs.Schema.Naming

namespace FilterQuery

/-! ## Allowed paths -/

/-- Every attribute on the path may be used on the entity that owns it. -/
def AccessLists.AllowsPath (l : AccessLists) (path : List PathSegment) : Prop :=
  ∀ p ∈ path, l.allows p.entity p.attr.name = true

/-- What is remembered is under its name, and what has been handed over is allowed. -/
structure Trace.Respects (l : AccessLists) (t : Trace) : Prop where
  named : t.cache.Named
  allowed : ∀ c ∈ t.built, l.AllowsPath c.leaf.path

namespace Resolver

open Run

variable {C : Type} {r : Resolver C}

theorem ensures_describe (hr : r.describer.Named) (entity name : String) :
    Ensures (Trace.Respects r.settings.access) (r.describe entity name)
      (fun a => ∀ x, a = some x → x.name = name) := by
  rw [describe]
  split
  · intro t ht
    rw [exec_modifyGet]
    refine ⟨⟨SchemaCache.named_describe ht.named hr, ht.allowed⟩, ?_⟩
    intro a ha x hx
    cases ha
    rcases SchemaCache.describe_eq_some hx with h | h
    · exact ht.named _ _ _ h
    · exact hr _ _ _ h
  · exact .pure fun x hx => hr _ _ _ hx

theorem ensures_enter (hr : r.describer.Named) {w : Walk} (name : String)
    (hw : r.settings.access.AllowsPath w.path) :
    Ensures (Trace.Respects r.settings.access) (r.enter w name)
      (fun w' => r.settings.access.AllowsPath w'.path) := by
  refine ensures_enter_of fun hallows => ?_
  refine (ensures_describe hr w.entity name).mono fun a? hname a ha => ?_
  -- the name that was checked is the one that the attribute carries
  have hallowed : r.settings.access.allows w.entity a.name = true := by
    rw [hname a ha]
    exact hallows
  intro p hp
  rw [Walk.path_onTo, List.mem_append, List.mem_singleton] at hp
  rcases hp with hp | rfl
  · exact hw p hp
  · exact hallowed

theorem ensures_path (hr : r.describer.Named) (entity selector : String) :
    Ensures (Trace.Respects r.settings.access) (r.path entity selector)
      (fun x => r.settings.access.AllowsPath x.1) := by
  have hstart : r.settings.access.AllowsPath ({ entity := entity } : Walk).path := by
    intro p hp
    cases hp
  refine (ensures_path_of hstart (fun w name hw => ensures_enter hr name hw) selector).mono ?_
  rintro x ⟨w, hw, hout⟩
  rwa [Walk.outcome_path hout]

theorem ensures_comparison (hr : r.describer.Named) (entity : String) (c : Comparison) :
    Ensures (Trace.Respects r.settings.access) (r.comparison entity c) (fun _ => True) := by
  refine ensures_comparison_of (ensures_path hr entity c.selector) ?_
  intro x values hx _ t ht
  refine ⟨ht.named, ?_⟩
  intro c' hc'
  rcases List.mem_append.1 hc' with hc' | hc'
  · exact ht.allowed c' hc'
  · rw [List.mem_singleton.1 hc']
    exact hx

/-- All that a run hands over is allowed, whether it comes to a condition or fails. -/
theorem ensures_resolve (hr : r.describer.Named) (n : Node) (entity : String) :
    Ensures (Trace.Respects r.settings.access) (r.resolve n entity) (fun _ => True) :=
  ensures_resolve_of fun c _ => ensures_comparison hr entity c

end Resolver

end FilterQuery
