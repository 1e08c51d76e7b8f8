/-
# FilterQuery.Proofs.Resolve.Views -- resolving depends on what is seen

What a resolver sees under a name is what it remembers there, or else what is described to it. A
run may remember more, but what is seen stays the same, so the trace from which a run starts
matters only for what is seen in it, and of that only for what the access lists allow.

`Resolver.plain view` is the resolver that remembers nothing and to which just this view is
described. A resolver that sees the view comes to the same results, whatever its cache holds
(`agrees_comparison`, `agrees_resolve`), and hands over the same leaves (`shows_eq_plain`). The laws
are told of any relation between the two traces that asking and handing over keep (`Couples`).
-/

import FilterQuery.Proofs.Resolve.Lifting

namespace FilterQuery.Resolver

open Run

variable {C : Type} {r : Resolver C} {view : Describer}

/-- The attribute that is seen under a name. -/
def sees (r : Resolver C) (t : Trace) (entity name : String) : Option Attribute :=
  if r.cached then (t.cache.table.get? (entity, name)).or (r.describer entity name)
  else r.describer entity name

/-- Where the access lists allow it, the view is what is seen. -/
def Steady (r : Resolver C) (view : Describer) (t : Trace) : Prop :=
  ∀ entity name, r.settings.access.allows entity name = true →
    r.sees t entity name = view entity name

theorem steady_self (r : Resolver C) (t : Trace) : r.Steady (r.sees t) t := fun _ _ _ => rfl

/-- The resolver without a cache to which a view is described. -/
def plain (r : Resolver C) (view : Describer) : Resolver C :=
  { r with describer := view, cached := false }

theorem exec_describe_plain (entity name : String) (t : Trace) :
    ((r.plain view).describe entity name).exec t = (.ok (view entity name), t) := rfl

/-- Asking for an attribute gives what is seen. -/
theorem exec_describe_fst (entity name : String) (t : Trace) :
    ((r.describe entity name).exec t).1 = .ok (r.sees t entity name) := by
  rw [describe, sees]
  cases r.cached with
  | false => rfl
  | true =>
    simp only [if_true, exec_modifyGet, SchemaCache.describe]
    cases t.cache.table.get? (entity, name) with
    | some a => rfl
    | none => cases r.describer entity name <;> rfl

/-- What is seen does not change when an attribute is remembered. -/
theorem sees_describe (entity name : String) (t : Trace) (entity' name' : String) :
    r.sees ((r.describe entity name).exec t).2 entity' name' = r.sees t entity' name' := by
  rw [describe, sees, sees]
  cases r.cached with
  | false => rfl
  | true =>
    simp only [if_true, exec_modifyGet, SchemaCache.describe]
    cases ht : t.cache.table.get? (entity, name) with
    | some a => rfl
    | none =>
      cases hd : r.describer entity name with
      | none => rfl
      | some a =>
        rw [Table.get?_put]
        split
        · -- the attribute that is remembered is the one that was described
          rename_i hkey
          cases hkey
          rw [ht, hd]
          rfl
        · rfl

theorem steady_describe {t : Trace} (ht : r.Steady view t) (entity name : String) :
    r.Steady view ((r.describe entity name).exec t).2 := by
  intro entity' name' h'
  rw [sees_describe]
  exact ht entity' name' h'

/-! ## Runs beside those of the plain resolver -/

/-- A relation that runs of the resolver and of the plain one keep when they are made side by side:
the view is seen in the first trace, asking changes only that one, and leaves are handed over in
both. -/
structure Couples (r : Resolver C) (view : Describer) (R : Trace → Trace → Prop) : Prop where
  steady : ∀ {t t' : Trace}, R t t' → r.Steady view t
  asks : ∀ {t t' : Trace} (entity name : String),
    R t t' → R ((r.describe entity name).exec t).2 t'
  hands : ∀ {t t' : Trace} (c : Construction), R t t' → R (t.hand c) (t'.hand c)

/-- That the view is seen is kept, whatever the plain resolver has done before. -/
theorem couples_steady (r : Resolver C) (view : Describer) :
    r.Couples view fun t _ => r.Steady view t where
  steady ht := ht
  asks entity name ht := steady_describe ht entity name
  hands _ ht := ht

/-- That the same leaves have been handed over is kept too. -/
theorem couples_built (r : Resolver C) (view : Describer) :
    r.Couples view fun t t' => r.Steady view t ∧ t.built = t'.built where
  steady h := h.1
  asks entity name h :=
    ⟨steady_describe h.1 entity name, (built_describe r entity name _).trans h.2⟩
  hands c h := ⟨h.1, congrArg (· ++ [c]) h.2⟩

namespace Couples

variable {R : Trace → Trace → Prop}

theorem describe (hR : r.Couples view R) {entity name : String}
    (h : r.settings.access.allows entity name = true) :
    Agrees R (r.describe entity name) ((r.plain view).describe entity name) := by
  intro t t' ht
  refine ⟨?_, hR.asks entity name ht⟩
  rw [exec_describe_fst, exec_describe_plain, hR.steady ht entity name h]

theorem enter (hR : r.Couples view R) (w : Walk) (name : String) :
    Agrees R (r.enter w name) ((r.plain view).enter w name) := by
  cases hscalar : w.scalar.isSome with
  | true =>
    rw [enter_of_scalar r hscalar, enter_of_scalar _ hscalar]
    exact .throw _
  | false =>
    rw [enter_of_entity r hscalar, enter_of_entity _ hscalar]
    -- the schema is asked only when the check has passed, so only for what is allowed
    refine Agrees.bind (.ofExcept _) fun t _ hcheck => ?_
    refine (hR.describe (AccessLists.allows_of_check hcheck)).bind fun _ a? _ => ?_
    cases a? with
    | none => exact .throw _
    | some a => exact .pure _

theorem path (hR : r.Couples view R) (entity selector : String) :
    Agrees R (r.path entity selector) ((r.plain view).path entity selector) := by
  have hfollow : ∀ w segment, Agrees R (r.follow w segment) ((r.plain view).follow w segment) := by
    intro w segment
    rw [follow, follow]
    split
    · exact .throw _
    · exact .foldlM (fun w name => hR.enter w name) _ w
  rw [path_eq, path_eq]
  refine (Agrees.foldlM hfollow _ _).bind fun _ w _ => ?_
  split
  · exact .pure _
  · exact .throw _

theorem construct (hR : r.Couples view R) (c : Construction) (condition : Except Failure C) :
    Agrees R (construct c condition) (construct c condition) := by
  intro t t' ht
  rw [exec_construct, exec_construct]
  exact ⟨rfl, hR.hands c ht⟩

theorem comparison (hR : r.Couples view R) (entity : String) (c : Comparison) :
    Agrees R (r.comparison entity c) ((r.plain view).comparison entity c) := by
  rw [comparison_eq, comparison_eq]
  refine (hR.path entity c.selector).bind fun _ x _ => ?_
  refine Agrees.bind (.ofExcept _) fun _ values? _ => ?_
  cases values? with
  | none => exact .pure _
  | some values => exact (hR.construct _ _).bind fun _ y _ => .pure _

mutual

theorem node (hR : r.Couples view R) (entity : String) : ∀ n : Node,
    Agrees R (r.node entity n) ((r.plain view).node entity n)
  | .comparison c => by
    rw [Resolver.node, Resolver.node]
    exact hR.comparison entity c
  | .logical _ op children => by
    rw [Resolver.node, Resolver.node]
    exact hR.nodes entity op none children

theorem nodes (hR : r.Couples view R) (entity : String) (op : Connective) (before : Option C) :
    ∀ ns : List Node,
      Agrees R (r.nodes entity op before ns) ((r.plain view).nodes entity op before ns)
  | [] => by
    rw [Resolver.nodes, Resolver.nodes]
    exact .pure _
  | n :: rest => by
    rw [Resolver.nodes, Resolver.nodes]
    exact (hR.node entity n).bind fun _ c _ =>
      hR.nodes entity op (r.combine op before c) rest

end

theorem resolve (hR : r.Couples view R) (n : Node) (entity : String) :
    Agrees R (r.resolve n entity) ((r.plain view).resolve n entity) := by
  rw [Resolver.resolve, Resolver.resolve]
  refine (hR.node entity n).bind fun _ c? _ => ?_
  cases c? <;> exact .pure _

end Couples

/-- Runs of the resolver agree with runs of the plain one as long as the view is seen. -/
abbrev Follows (r : Resolver C) (view : Describer) {α : Type} (m m' : Run α) : Prop :=
  Agrees (fun t _ => r.Steady view t) m m'

/-- A comparison comes to the same result, and its run does not change what is seen. -/
theorem agrees_comparison (entity : String) (c : Comparison) :
    r.Follows view (r.comparison entity c) ((r.plain view).comparison entity c) :=
  (couples_steady r view).comparison entity c

/-- A tree comes to the same result, wherever the plain resolver starts. -/
theorem agrees_resolve (n : Node) (entity : String) :
    r.Follows view (r.resolve n entity) ((r.plain view).resolve n entity) :=
  (couples_steady r view).resolve n entity

/-- All that shows of resolving a filter: what it comes to, and which leaves it hands over. -/
def shows (r : Resolver C) (t : Trace) (n : Node) (entity : String) :
    Except Failure C × List Construction :=
  let (result, left) := (r.resolve n entity).exec t
  (result, left.built)

/-- A filter shows no more than what is seen shows to a plain resolver. -/
theorem shows_eq_plain {k : SchemaCache} (h : r.Steady view { cache := k }) (n : Node)
    (entity : String) : r.shows { cache := k } n entity = (r.plain view).shows {} n entity := by
  obtain ⟨hresult, -, hbuilt⟩ := (couples_built r view).resolve n entity _ {} ⟨h, rfl⟩
  exact Prod.ext hresult hbuilt

end FilterQuery.Resolver
