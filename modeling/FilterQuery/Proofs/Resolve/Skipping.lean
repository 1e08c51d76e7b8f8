/-
# FilterQuery.Proofs.Resolve.Skipping -- skipping is pruning

A comparison that is skipped counts as never written. To say so, a tree is pruned first
(`Node.prune`): the comparisons to be dropped go, what is left is joined anew, and a node that is
left without children goes too. Then skipping what cannot be converted comes to the same as
rejecting in the pruned tree, and to what always holds if nothing is left of the tree
(`resolve_skip`). Only comparisons whose path resolves are dropped (`Resolver.inconvertible`), so a
path that fails still shows.

The two runs differ in what they remember, since the one follows the paths of dropped comparisons
and the other does not. So the equality is proved of plain resolvers, of which paths leave no trace
at all (`path_plain`); there it is an equality of runs, by induction on the tree. The cache comes
back in at the end, by `agrees_resolve`.
-/

import FilterQuery.Proofs.Resolve.Arguments
import FilterQuery.Proofs.Resolve.Views

namespace FilterQuery

/-! ## Pruned trees -/

namespace Node

mutual

/-- What is left of a tree without the comparisons to be dropped, if anything is. -/
def prune (drop : Comparison → Bool) : Node → Option Node
  | comparison c => if drop c then none else some (comparison c)
  | logical _ op children => (join op (pruneAll drop children)).toOption

/-- What is left of some trees. -/
def pruneAll (drop : Comparison → Bool) : List Node → List Node
  | [] => []
  | n :: rest => (prune drop n).toList ++ pruneAll drop rest

end

end Node

namespace Resolver

open Run

variable {C : Type} {r : Resolver C} {entity : String}

/-- The resolver under a policy. -/
def under (r : Resolver C) (p : FailurePolicy) : Resolver C :=
  { r with settings := { r.settings with policy := p } }

/-- Whether one of the arguments does not convert to the type at which it is read when the path ends
with `type`: that of the custom predicate for it, or else `type` itself. -/
def unreadable (r : Resolver C) (c : Comparison) (type : ValueType) : Bool :=
  c.arguments.any fun a =>
    (r.settings.converters.convert a (r.maker c.operator.primary type).argumentType).isNone

/-- Whether the path of a comparison resolves but one of its arguments does not convert. -/
def inconvertible (r : Resolver C) (entity : String) (t : Trace) (c : Comparison) : Bool :=
  match ((r.path entity c.selector).exec t).1 with
  | .ok x => r.unreadable c x.2
  | .error _ => false

/-! ## Plain resolvers -/

/-- A plain resolver finds a path without leaving a trace. -/
theorem path_plain (r : Resolver C) (view : Describer) (entity selector : String) :
    (r.plain view).path entity selector =
      Run.ofExcept (((r.plain view).path entity selector).exec {}).1 := by
  have hkeep : ∀ t : Trace,
      Ensures (· = t) ((r.plain view).path entity selector) fun _ => True := by
    intro t
    refine ensures_path_of_describe (fun entity name u hu => ?_) entity selector
    rw [exec_describe_plain]
    exact ⟨hu, fun _ _ => trivial⟩
  -- nothing is remembered, so any two traces will do
  have hsame : (r.plain view).Couples view fun _ _ => True :=
    ⟨fun _ _ _ _ => rfl, fun _ _ _ => trivial, fun _ _ => trivial⟩
  refine funext fun t => Prod.ext ?_ (hkeep t t rfl).1
  exact (hsame.path entity selector t {} trivial).1

/-- Skipping drops the arguments of a comparison that does not convert. -/
theorem convertAll_of_unreadable {c : Comparison} {type : ValueType}
    (h : r.unreadable c type = true) :
    (r.under .skip).settings.convertAll (r.maker c.operator.primary type).argumentType c.arguments =
      .ok none := by
  refine Settings.convertAll_of_skip rfl ?_
  obtain ⟨a, ha, hnone⟩ := List.any_eq_true.1 h
  exact ⟨a, ha, Option.isNone_iff_eq_none.1 hnone⟩

/-- Where all arguments convert, it does not matter what would become of others. -/
theorem convertAll_of_readable {c : Comparison} {type : ValueType}
    (h : r.unreadable c type = false) (p : FailurePolicy) :
    (r.under p).settings.convertAll (r.maker c.operator.primary type).argumentType c.arguments =
      .ok (some (c.arguments.filterMap
        (r.settings.converters.convert · (r.maker c.operator.primary type).argumentType))) := by
  refine Settings.convertAll_of_forall fun a ha => ?_
  have hsome := List.any_eq_false.1 h a ha
  rwa [Bool.not_eq_true, Option.isNone_eq_false_iff] at hsome

/-- A comparison is dropped, or it comes to the same under both policies. -/
theorem comparison_skip (r : Resolver C) (view : Describer) (entity : String) (c : Comparison) :
    ((r.plain view).under .skip).comparison entity c =
      if (r.plain view).inconvertible entity {} c then pure none
      else ((r.plain view).under .reject).comparison entity c := by
  -- following a path has nothing to do with the policy, nor has what is made of values
  have hcomparison : ∀ p, ((r.plain view).under p).comparison entity c =
      ((r.plain view).path entity c.selector >>= fun x =>
        Run.ofExcept (((r.plain view).under p).settings.convertAll
          ((r.plain view).maker c.operator.primary x.2).argumentType c.arguments) >>=
            (r.plain view).conclude entity c x) :=
    fun p => comparison_eq_conclude _ entity c
  rw [hcomparison, hcomparison, inconvertible, path_plain]
  rcases (((r.plain view).path entity c.selector).exec {}).1 with f | x
  · rfl
  · rw [ofExcept_ok_bind, ofExcept_ok_bind, exec_ofExcept]
    dsimp only
    by_cases hdrop : (r.plain view).unreadable c x.2 = true
    · rw [if_pos hdrop, convertAll_of_unreadable hdrop]
      rfl
    · rw [if_neg hdrop]
      rw [Bool.not_eq_true] at hdrop
      rw [convertAll_of_readable hdrop, convertAll_of_readable hdrop]

theorem combine_none (r : Resolver C) (op : Connective) (before : Option C) :
    r.combine op before none = before := by
  cases before <;> rfl

mutual

/-- Skipping in a tree is rejecting in what is left of it. -/
theorem node_skip (r : Resolver C) (view : Describer) (entity : String) : ∀ n : Node,
    ((r.plain view).under .skip).node entity n =
      match n.prune ((r.plain view).inconvertible entity {}) with
      | none => pure none
      | some m => ((r.plain view).under .reject).node entity m
  | .comparison c => by
    rw [node, comparison_skip, Node.prune]
    split <;> simp only [node]
  | .logical _ op children => by
    rw [node, nodes_skip, Node.prune]
    -- what is left may be nothing, one tree, or more that are joined again
    match Node.pruneAll ((r.plain view).inconvertible entity {}) children with
    | [] => rfl
    | [m] =>
      show (((r.plain view).under .reject).node entity m >>= fun c => pure c) = _
      exact bind_pure _
    | m :: m' :: ms =>
      rw [Node.join, Node.joined_eq]
      rfl

theorem nodes_skip (r : Resolver C) (view : Describer) (entity : String) (op : Connective)
    (before : Option C) : ∀ ns : List Node,
      ((r.plain view).under .skip).nodes entity op before ns =
        ((r.plain view).under .reject).nodes entity op before
          (Node.pruneAll ((r.plain view).inconvertible entity {}) ns)
  | [] => rfl
  | n :: rest => by
    rw [nodes, node_skip, Node.pruneAll]
    cases n.prune ((r.plain view).inconvertible entity {}) with
    | none =>
      show ((r.plain view).under .skip).nodes entity op
        (((r.plain view).under .skip).combine op before none) rest = _
      rw [combine_none, nodes_skip]
      rfl
    | some m =>
      show _ = (((r.plain view).under .reject).node entity m >>= fun c => _)
      exact bind_congr fun c => nodes_skip r view entity op _ rest

end

/-! ## Any resolver -/

theorem inconvertible_plain (r : Resolver C) (entity : String) (t : Trace) :
    (r.plain (r.sees t)).inconvertible entity {} = r.inconvertible entity t := by
  funext c
  have hpath := ((couples_steady r (r.sees t)).path entity c.selector t {} (r.steady_self t)).1
  rw [inconvertible, inconvertible, hpath]
  rfl

/-- Skipping is pruning. Whatever is remembered, a filter under the policy that skips comes to what
always holds if nothing is left of it without the comparisons that do not convert, and otherwise to
what the rest comes to, condition or failure, under the policy that rejects. -/
theorem resolve_skip (r : Resolver C) (t : Trace) (n : Node) (entity : String) :
    (((r.under .skip).resolve n entity).exec t).1 =
      match n.prune (r.inconvertible entity t) with
      | none => .ok r.builder.always
      | some m => (((r.under .reject).resolve m entity).exec t).1 := by
  have hfollow : ∀ p m, (((r.under p).resolve m entity).exec t).1 =
      ((((r.plain (r.sees t)).under p).resolve m entity).exec {}).1 := fun p m =>
    (agrees_resolve m entity t {} ((r.under p).steady_self t)).1
  rw [hfollow, resolve, node_skip, inconvertible_plain]
  cases n.prune (r.inconvertible entity t) with
  | none => rfl
  | some m =>
    show _ = (((r.under .reject).resolve m entity).exec t).1
    rw [hfollow, resolve]
    rfl

end Resolver

end FilterQuery
