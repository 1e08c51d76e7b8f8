/-
# FilterQuery.Proofs.Resolve.Order -- leaves are handed over once and in order

What a storage layer sees of resolving is a row of leaves. Each comparison has a fate that it would
also have by itself (`Resolver.fate`): it is dropped, it is refused before there is a leaf, or a
leaf of it is handed over, from which a condition is built or not. The row is read off the fates of
the comparisons from left to right, up to the first that is a failure, and with that resolving
fails. Without one, the conditions are joined as the tree says (`Node.condition?`).

The fates are taken in the trace from which the run starts, though other comparisons may have been
resolved in between. As in skipping, this is proved of plain resolvers first, of which a comparison
is nothing but its fate (`comparison_plain`); there the run of a tree can be told exactly
(`exec_node`). What is remembered comes back in by `Couples.resolve`, which keeps the row of leaves.
-/

import FilterQuery.Proofs.Resolve.Meaning
import FilterQuery.Proofs.Resolve.Skipping

namespace FilterQuery

/-! ## Fates -/

/-- What becomes of a comparison by itself: it is dropped, it is refused before there is a leaf, or
a leaf of it is handed over, which comes to a condition or fails. -/
inductive Fate (C : Type) where
  | dropped
  | refused (f : Failure)
  | handed (made : Construction) (condition : Except Failure C)

namespace Fate

variable {C : Type}

/-- The leaf that is handed over, and to whom. -/
def made? : Fate C → Option Construction
  | handed made _ => some made
  | _ => none

/-- The failure that ends the run. -/
def failure? : Fate C → Option Failure
  | refused f => some f
  | handed _ (.error f) => some f
  | _ => none

/-- The condition that is built. -/
def condition? : Fate C → Option C
  | handed _ (.ok x) => some x
  | _ => none

/-- The run of a comparison with this fate. -/
def run : Fate C → Run (Option C)
  | dropped => pure none
  | refused f => throw f
  | handed made condition => Resolver.construct made condition >>= fun x => pure (some x)

/-- The fates up to the first failure, that one included. -/
def attempted : List (Fate C) → List (Fate C)
  | [] => []
  | x :: rest => x :: if x.failure?.isSome then [] else attempted rest

/-- The leaves that are handed over, in order. -/
def row (fates : List (Fate C)) : List Construction := (attempted fates).filterMap made?

/-- The first failure, or else a result. -/
def outcome {α : Type} (fates : List (Fate C)) (a : α) : Except Failure α :=
  match fates.findSome? failure? with
  | some f => .error f
  | none => .ok a

variable {xs : List (Fate C)}

/-- Nothing is attempted after a failure. -/
theorem attempted_append_of_some {f : Failure} (h : xs.findSome? failure? = some f)
    (ys : List (Fate C)) : attempted (xs ++ ys) = attempted xs := by
  induction xs with
  | nil => cases h
  | cons x rest ih =>
    rw [List.cons_append, attempted, attempted]
    cases hx : x.failure? with
    | some g => rfl
    | none =>
      rw [List.findSome?_cons, hx] at h
      simp only [Option.isSome_none, Bool.false_eq_true, if_false]
      rw [ih h]

/-- Without a failure all is attempted. -/
theorem attempted_append_of_none (h : xs.findSome? failure? = none) (ys : List (Fate C)) :
    attempted (xs ++ ys) = xs ++ attempted ys := by
  induction xs with
  | nil => rfl
  | cons x rest ih =>
    rw [List.findSome?_cons] at h
    cases hx : x.failure? with
    | some g =>
      rw [hx] at h
      cases h
    | none =>
      rw [hx] at h
      rw [List.cons_append, attempted, hx, ih h]
      rfl

theorem row_append_of_some {f : Failure} (h : xs.findSome? failure? = some f)
    (ys : List (Fate C)) : row (xs ++ ys) = row xs := by
  rw [row, attempted_append_of_some h, row]

theorem row_of_none (h : xs.findSome? failure? = none) : row xs = xs.filterMap made? := by
  have hall := attempted_append_of_none h []
  rw [List.append_nil, attempted, List.append_nil] at hall
  rw [row, hall]

theorem row_append_of_none (h : xs.findSome? failure? = none) (ys : List (Fate C)) :
    row (xs ++ ys) = row xs ++ row ys := by
  rw [row_of_none h, row, attempted_append_of_none h, List.filterMap_append, row]

theorem outcome_append_of_some {α β : Type} {f : Failure} (h : xs.findSome? failure? = some f)
    (ys : List (Fate C)) (a : α) (b : β) :
    outcome xs a = .error f ∧ outcome (xs ++ ys) b = .error f := by
  constructor
  · rw [outcome, h]
  · rw [outcome, List.findSome?_append, h]
    rfl

theorem outcome_append_of_none {α β : Type} (h : xs.findSome? failure? = none)
    (ys : List (Fate C)) (a : α) (b : β) :
    outcome xs a = .ok a ∧ outcome (xs ++ ys) b = outcome ys b := by
  constructor
  · rw [outcome, h]
  · rw [outcome, outcome, List.findSome?_append, h]
    rfl

end Fate

/-! ## Joined conditions -/

namespace ConditionBuilder

variable {C : Type} (b : ConditionBuilder C) (op : Connective)

/-- Two conditions joined. -/
def join : Connective → C → C → C
  | .and => b.and
  | .or => b.or

/-- Conditions joined from the left. One condition stays as it is, and of none there is none. -/
def joinAll : List C → Option C
  | [] => none
  | x :: rest => some (rest.foldl (b.join op) x)

end ConditionBuilder

namespace Node

variable {C : Type} (b : ConditionBuilder C) (conditionOf : Comparison → Option C)

mutual

/-- The condition of a tree, given those of its comparisons: at a logical node the conditions of the
children are joined, of those that have one. -/
def condition? : Node → Option C
  | comparison c => conditionOf c
  | logical _ op children => b.joinAll op (conditions children)

/-- The conditions of some trees, of those that have one. -/
def conditions : List Node → List C
  | [] => []
  | n :: rest => (condition? n).toList ++ conditions rest

end

end Node

namespace Resolver

open Run

variable {C : Type} {r : Resolver C} {entity : String}

theorem combine_eq_joinAll (r : Resolver C) (op : Connective) (before c? : Option C) :
    r.combine op before c? = r.builder.joinAll op (before.toList ++ c?.toList) := by
  cases before with
  | none => cases c? <;> rfl
  | some x =>
    cases c? with
    | none => rfl
    | some y => cases op <;> rfl

/-- Joining goes on from what has been joined before. -/
theorem joinAll_append (b : ConditionBuilder C) (op : Connective) (xs ys : List C) :
    b.joinAll op ((b.joinAll op xs).toList ++ ys) = b.joinAll op (xs ++ ys) := by
  cases xs with
  | nil => rfl
  | cons x rest =>
    show some (ys.foldl (b.join op) (rest.foldl (b.join op) x)) =
      some ((rest ++ ys).foldl (b.join op) x)
    rw [List.foldl_append]

/-! ## Plain resolvers -/

/-- The fate of a comparison: that of its path, then of its arguments, then of its leaf. -/
def fate (r : Resolver C) (entity : String) (t : Trace) (c : Comparison) : Fate C :=
  match ((r.path entity c.selector).exec t).1 with
  | .error f => .refused f
  | .ok x =>
    let maker := r.maker c.operator.primary x.2
    match r.settings.convertAll maker.argumentType c.arguments with
    | .error f => .refused f
    | .ok none => .dropped
    | .ok (some values) =>
      let made := r.construction entity c x values
      .handed made (maker.make made.leaf)

/-- Of a plain resolver, a comparison is nothing but its fate. -/
theorem comparison_plain (r : Resolver C) (view : Describer) (entity : String) (c : Comparison) :
    (r.plain view).comparison entity c = ((r.plain view).fate entity {} c).run := by
  rw [comparison_eq_conclude, path_plain, fate]
  rcases (((r.plain view).path entity c.selector).exec {}).1 with f | x
  · rfl
  · rw [ofExcept_ok_bind]
    dsimp only
    rcases (r.plain view).settings.convertAll
      ((r.plain view).maker c.operator.primary x.2).argumentType c.arguments with f | values?
    · rfl
    · cases values? <;> rfl

/-! ## What a run does -/

/-- From wherever it starts, the run comes to this result and hands over these leaves; it leaves no
other trace. -/
def Does {α : Type} (m : Run α) (result : Except Failure α) (row : List Construction) : Prop :=
  ∀ t : Trace, m.exec t = (result, { t with built := t.built ++ row })

section Does

variable {α β : Type} {m : Run α} {f : α → Run β} {row more : List Construction}

theorem Does.pure (a : α) : Does (pure a : Run α) (.ok a) [] := by
  intro t
  rw [exec_pure, List.append_nil]

theorem Does.bind_error {e : Failure} (hm : Does m (.error e) row) :
    Does (m >>= f) (.error e) row := by
  intro t
  rw [exec_bind, hm t]

theorem Does.bind_ok {a : α} {result : Except Failure β} (hm : Does m (.ok a) row)
    (hf : Does (f a) result more) : Does (m >>= f) result (row ++ more) := by
  intro t
  rw [exec_bind, hm t]
  show (f a).exec _ = _
  rw [hf, List.append_assoc]

end Does

/-- A comparison that is nothing but a fate fails as that does, or has its condition. -/
theorem does_fate (x : Fate C) : Does x.run (Fate.outcome [x] x.condition?) (Fate.row [x]) := by
  intro t
  match x with
  | .dropped => exact Does.pure none t
  | .refused f =>
    show (_, t) = (_, { t with built := t.built ++ [] })
    rw [List.append_nil]
    rfl
  | .handed made (.ok y) => rfl
  | .handed made (.error f) => rfl

mutual

/-- What the run of a tree does, where each comparison is nothing but a fate. -/
theorem does_node {fates : Comparison → Fate C}
    (hfates : ∀ c, r.comparison entity c = (fates c).run) : ∀ n : Node,
      Does (r.node entity n)
        (Fate.outcome (n.comparisons.map fates)
          (n.condition? r.builder fun c => (fates c).condition?))
        (Fate.row (n.comparisons.map fates))
  | .comparison c => by
    rw [node, hfates]
    exact does_fate (fates c)
  | .logical _ op children => by
    rw [node]
    exact does_nodes hfates op none children

/-- What the run of the children does, when conditions have been joined before. -/
theorem does_nodes {fates : Comparison → Fate C}
    (hfates : ∀ c, r.comparison entity c = (fates c).run) (op : Connective) (before : Option C) :
    ∀ ns : List Node,
      Does (r.nodes entity op before ns)
        (Fate.outcome ((Node.comparisonsAll ns).map fates)
          (r.builder.joinAll op (before.toList ++
            Node.conditions r.builder (fun c => (fates c).condition?) ns)))
        (Fate.row ((Node.comparisonsAll ns).map fates))
  | [] => by
    rw [nodes]
    have hbefore : r.builder.joinAll op (before.toList ++ []) = before := by
      cases before <;> rfl
    rw [Node.conditions, hbefore]
    exact Does.pure before
  | n :: rest => by
    have hn := does_node hfates n
    rw [nodes, Node.comparisonsAll, List.map_append]
    cases hfirst : (n.comparisons.map fates).findSome? Fate.failure? with
    | some f =>
      -- the first child fails, and the others are not looked at
      obtain ⟨hfailed, hall⟩ := Fate.outcome_append_of_some hfirst
        ((Node.comparisonsAll rest).map fates) _ _
      rw [hfailed] at hn
      rw [hall, Fate.row_append_of_some hfirst]
      exact hn.bind_error
    | none =>
      obtain ⟨hok, hall⟩ := Fate.outcome_append_of_none hfirst
        ((Node.comparisonsAll rest).map fates) _ _
      rw [hok] at hn
      rw [hall, Fate.row_append_of_none hfirst]
      have hjoined : r.builder.joinAll op
          ((r.combine op before (n.condition? r.builder fun c => (fates c).condition?)).toList ++
            Node.conditions r.builder (fun c => (fates c).condition?) rest) =
          r.builder.joinAll op (before.toList ++
            Node.conditions r.builder (fun c => (fates c).condition?) (n :: rest)) := by
        rw [combine_eq_joinAll, joinAll_append, List.append_assoc, Node.conditions]
      have hrest := does_nodes hfates op
        (r.combine op before (n.condition? r.builder fun c => (fates c).condition?)) rest
      rw [hjoined] at hrest
      exact hn.bind_ok hrest

end

/-- What resolving does, where each comparison is nothing but a fate. -/
theorem does_resolve {fates : Comparison → Fate C}
    (hfates : ∀ c, r.comparison entity c = (fates c).run) (n : Node) :
    Does (r.resolve n entity)
      (Fate.outcome (n.comparisons.map fates)
        ((n.condition? r.builder fun c => (fates c).condition?).getD r.builder.always))
      (Fate.row (n.comparisons.map fates)) := by
  have hn := does_node hfates n
  rw [resolve]
  unfold Fate.outcome at hn ⊢
  cases hfirst : (n.comparisons.map fates).findSome? Fate.failure? with
  | some f =>
    rw [hfirst] at hn
    exact hn.bind_error
  | none =>
    rw [hfirst] at hn
    rw [← List.append_nil (Fate.row _)]
    refine hn.bind_ok ?_
    cases n.condition? r.builder fun c => (fates c).condition? with
    | none => exact Does.pure _
    | some x => exact Does.pure x

/-! ## Any resolver -/

theorem fate_plain (r : Resolver C) (entity : String) (t : Trace) :
    (r.plain (r.sees t)).fate entity {} = r.fate entity t := by
  funext c
  have hpath := ((couples_steady r (r.sees t)).path entity c.selector t {} (r.steady_self t)).1
  rw [fate, fate, hpath]
  rfl

/-- Only skipping drops a comparison, and only one whose path resolves and of whose arguments one
does not convert. -/
theorem fate_eq_dropped_iff (r : Resolver C) (entity : String) (t : Trace) (c : Comparison) :
    r.fate entity t c = .dropped ↔
      r.settings.policy = .skip ∧ r.inconvertible entity t c = true := by
  unfold fate inconvertible
  cases ((r.path entity c.selector).exec t).1 with
  | error f => simp
  | ok x =>
    have hdropped : (r.settings.convertAll (r.maker c.operator.primary x.2).argumentType
        c.arguments = .ok none) ↔ r.settings.policy = .skip ∧ r.unreadable c x.2 = true := by
      constructor
      · intro hnone
        have hskip : r.settings.policy = .skip := by
          by_contra hpolicy
          exact convertAll_ne_none hpolicy _ _ hnone
        refine ⟨hskip, ?_⟩
        by_contra hreadable
        rw [Bool.not_eq_true] at hreadable
        have hsome := convertAll_of_readable hreadable r.settings.policy
        cases hnone.symm.trans hsome
      · rintro ⟨hskip, hunreadable⟩
        have hnone := convertAll_of_unreadable hunreadable
        have hsame : r.settings.convertAll (r.maker c.operator.primary x.2).argumentType
            c.arguments = (r.under .skip).settings.convertAll
              (r.maker c.operator.primary x.2).argumentType c.arguments := by
          apply Settings.convertAll_congr
          · rfl
          · exact hskip
        exact hsame.trans hnone
    dsimp only
    rw [← hdropped]
    rcases r.settings.convertAll (r.maker c.operator.primary x.2).argumentType c.arguments with
      f | values?
    · simp
    · cases values? <;> simp

/-- The row of leaves and the result of resolving, by the fates that the comparisons have. -/
theorem exec_resolve_eq (r : Resolver C) (n : Node) (entity : String) (t : Trace) :
    ((r.resolve n entity).exec t).1 =
        Fate.outcome (n.comparisons.map (r.fate entity t))
          ((n.condition? r.builder fun c => (r.fate entity t c).condition?).getD
            r.builder.always) ∧
      ((r.resolve n entity).exec t).2.built =
        t.built ++ Fate.row (n.comparisons.map (r.fate entity t)) := by
  -- the plain resolver that sees the same runs beside this one, from the same trace
  obtain ⟨hresult, -, hbuilt⟩ := (couples_built r (r.sees t)).resolve n entity t t
    ⟨r.steady_self t, rfl⟩
  have hplain := does_resolve (comparison_plain r (r.sees t) entity) n t
  rw [fate_plain] at hplain
  rw [hresult, hbuilt, hplain]
  exact ⟨rfl, rfl⟩

end Resolver

/-! ## Expressions -/

namespace Expression

theorem leavesAll_append (xs ys : List Expression) :
    leavesAll (xs ++ ys) = leavesAll xs ++ leavesAll ys := by
  induction xs with
  | nil => rfl
  | cons x rest ih => rw [List.cons_append, leavesAll, leavesAll, ih, List.append_assoc]

theorem leavesAll_singleton (x : Expression) : leavesAll [x] = x.leaves :=
  List.append_nil _

/-- Taking expressions of the same kind apart loses no leaf. -/
theorem leaves_join (op : Connective) (x y : Expression) :
    (builder.join op x y).leaves = x.leaves ++ y.leaves := by
  have hconjuncts : ∀ z : Expression, leavesAll z.conjuncts = z.leaves := by
    intro z
    cases z with
    | and operands => rfl
    | _ => exact leavesAll_singleton _
  have hdisjuncts : ∀ z : Expression, leavesAll z.disjuncts = z.leaves := by
    intro z
    cases z with
    | or operands => rfl
    | _ => exact leavesAll_singleton _
  cases op with
  | and =>
    show leavesAll (x.conjuncts ++ y.conjuncts) = _
    rw [leavesAll_append, hconjuncts, hconjuncts]
  | or =>
    show leavesAll (x.disjuncts ++ y.disjuncts) = _
    rw [leavesAll_append, hdisjuncts, hdisjuncts]

theorem leavesAll_joinAll (op : Connective) (xs : List Expression) :
    leavesAll (builder.joinAll op xs).toList = leavesAll xs := by
  cases xs with
  | nil => rfl
  | cons x rest =>
    show leavesAll [rest.foldl (builder.join op) x] = leavesAll (x :: rest)
    rw [leavesAll_singleton]
    induction rest generalizing x with
    | nil => exact (leavesAll_singleton x).symm
    | cons y rest ih =>
      rw [List.foldl_cons, ih, leavesAll, leaves_join, leavesAll, leavesAll, List.append_assoc]

mutual

/-- The leaves of a tree's condition are those of the conditions of its comparisons, in order. -/
theorem leavesAll_condition? (of : Comparison → Option Expression) : ∀ n : Node,
    leavesAll (n.condition? builder of).toList = leavesAll (n.comparisons.filterMap of)
  | .comparison c => by
    rw [Node.condition?, Node.comparisons]
    cases h : of c <;> simp [h]
  | .logical _ op children => by
    rw [Node.condition?, Node.comparisons, leavesAll_joinAll]
    exact leavesAll_conditions of children

theorem leavesAll_conditions (of : Comparison → Option Expression) : ∀ ns : List Node,
    leavesAll (Node.conditions builder of ns) =
      leavesAll ((Node.comparisonsAll ns).filterMap of)
  | [] => rfl
  | n :: rest => by
    rw [Node.conditions, Node.comparisonsAll, List.filterMap_append, leavesAll_append,
      leavesAll_append, leavesAll_condition? of n, leavesAll_conditions of rest]

end

end Expression

namespace Resolver

open Run

variable {r : Resolver Expression} {entity : String} {t : Trace}

/-- Where expressions are built and nothing else, a fate with a leaf has the condition that is this
leaf, and no custom predicate gets it. -/
theorem condition?_fate (entity : String) (t : Trace) (hbuilder : r.builder = Expression.builder)
    (hcustom : ∀ symbol type, r.settings.predicate? symbol type = none) (c : Comparison) :
    (r.fate entity t c).condition? =
        (r.fate entity t c).made?.map (fun made => Expression.leaf made.leaf) ∧
      ∀ made ∈ (r.fate entity t c).made?, made.custom = false := by
  have hnone : ∀ made ∈ (none : Option Construction), made.custom = false := by
    intro made hmade
    cases hmade
  unfold fate
  cases ((r.path entity c.selector).exec t).1 with
  | error f => exact ⟨rfl, hnone⟩
  | ok x =>
    have hmaker : r.maker c.operator.primary x.2 = ⟨false, x.2, Expression.builder.leaf⟩ := by
      rw [maker, hcustom, hbuilder]
    simp only [construction, hmaker]
    rcases r.settings.convertAll x.2 c.arguments with f | values?
    · exact ⟨rfl, hnone⟩
    · cases values? with
      | none => exact ⟨rfl, hnone⟩
      | some values =>
        refine ⟨rfl, ?_⟩
        intro made hmade
        cases hmade
        rfl

/-- The leaves of the conditions of some comparisons are those that are handed over for them. -/
theorem filterMap_made?_eq (entity : String) (t : Trace) (hbuilder : r.builder = Expression.builder)
    (hcustom : ∀ symbol type, r.settings.predicate? symbol type = none) (cs : List Comparison) :
    cs.filterMap (fun c => (r.fate entity t c).made?) =
      (Expression.leavesAll (cs.filterMap fun c => (r.fate entity t c).condition?)).map
        fun l => ⟨l, false⟩ := by
  induction cs with
  | nil => rfl
  | cons c rest ih =>
    obtain ⟨hcondition, hnone⟩ := condition?_fate entity t hbuilder hcustom c
    cases hmade : (r.fate entity t c).made? with
    | none =>
      rw [hmade, Option.map_none] at hcondition
      simp only [List.filterMap_cons, hmade, hcondition]
      exact ih
    | some made =>
      have hmine : made = ⟨made.leaf, false⟩ := by
        rw [← hnone made hmade]
      rw [hmade, Option.map_some] at hcondition
      simp only [List.filterMap_cons, hmade, hcondition]
      rw [ih, Expression.leavesAll, Expression.leaves]
      exact congrArg (· :: _) hmine

/-- The leaves of the expression to which a filter resolves are those that were handed over. -/
theorem built_eq_leaves (hbuilder : r.builder = Expression.builder)
    (hcustom : ∀ symbol type, r.settings.predicate? symbol type = none) {n : Node}
    {x : Expression} (h : ((r.resolve n entity).exec t).1 = .ok x) :
    ((r.resolve n entity).exec t).2.built = t.built ++ x.leaves.map fun l => ⟨l, false⟩ := by
  obtain ⟨hresult, hbuilt⟩ := exec_resolve_eq r n entity t
  rw [hresult, Fate.outcome] at h
  rw [hbuilt]
  cases hfirst : (n.comparisons.map (r.fate entity t)).findSome? Fate.failure? with
  | some f =>
    rw [hfirst] at h
    cases h
  | none =>
    rw [hfirst] at h
    cases h
    -- what always holds has no leaves, as befits a filter of which all is dropped
    have hleaves : ∀ x? : Option Expression,
        (x?.getD Expression.builder.always).leaves = Expression.leavesAll x?.toList := by
      intro x?
      cases x? with
      | none => rfl
      | some x => exact (Expression.leavesAll_singleton x).symm
    have hrow := filterMap_made?_eq entity t hbuilder hcustom n.comparisons
    rw [Fate.row_of_none hfirst, List.filterMap_map, hbuilder, hleaves,
      Expression.leavesAll_condition?]
    exact congrArg (t.built ++ ·) hrow

/-- Resolving a filter from a trace goes through its comparisons in order. Only skipping drops one,
for an argument that does not convert. The leaves that are handed over are those of the comparisons
from left to right, up to and including the first whose fate is a failure. That failure is what
resolving comes to. If there is none, it comes to the condition that the tree joins from those of
its comparisons, or to what always holds if all are dropped. -/
structure Orderly {C : Type} (r : Resolver C) (n : Node) (entity : String) (t : Trace) : Prop where
  dropped : ∀ c, r.fate entity t c = .dropped ↔
    r.settings.policy = .skip ∧ r.inconvertible entity t c = true
  row : ((r.resolve n entity).exec t).2.built = t.built ++
    (Fate.attempted (n.comparisons.map (r.fate entity t))).filterMap Fate.made?
  result : ((r.resolve n entity).exec t).1 =
    match (n.comparisons.map (r.fate entity t)).findSome? Fate.failure? with
    | some f => .error f
    | none => .ok ((n.condition? r.builder fun c => (r.fate entity t c).condition?).getD
        r.builder.always)

/-- Leaves are handed over once, in the order of the comparisons, and none after a failure, whatever
is remembered at first. Where expressions are built and no custom predicate is found, the leaves of
the expression to which a filter resolves are the leaves that were handed over. -/
theorem resolve_in_order (n : Node) (entity : String) (t : Trace) :
    (∀ {C : Type} (r : Resolver C), r.Orderly n entity t) ∧
    ∀ r : Resolver Expression, r.builder = Expression.builder →
      (∀ symbol type, r.settings.predicate? symbol type = none) →
        ∀ x, ((r.resolve n entity).exec t).1 = .ok x →
          ((r.resolve n entity).exec t).2.built =
            t.built ++ x.leaves.map fun l => ⟨l, false⟩ := by
  constructor
  · intro C r
    obtain ⟨hresult, hbuilt⟩ := exec_resolve_eq r n entity t
    exact ⟨fate_eq_dropped_iff r entity t, hbuilt, hresult⟩
  · intro r hbuilder hcustom x hx
    exact built_eq_leaves hbuilder hcustom hx

/-- Tasks with a level, which is a number, and a title, which is a text. -/
def tasks : Describer := fun _ name =>
  if name = "level" then some (.basic name (.int .i32))
  else if name = "title" then some (.basic name .string)
  else none

/-- A resolver of tasks that skips. -/
def skipping : Resolver Expression := ⟨{ policy := .skip }, tasks, true, Expression.builder⟩

/-- A level that is no number, and an attribute that no task has between some that they have. -/
def scattered : Node :=
  .logical .or .or
    [.comparison ⟨⟨"==", [], false⟩, "title", ["a"]⟩,
      .comparison ⟨⟨"==", [], false⟩, "level", ["x"]⟩,
      .logical .and .and
        [.comparison ⟨⟨"==", [], false⟩, "level", ["1"]⟩,
          .comparison ⟨⟨"==", [], false⟩, "owner", ["b"]⟩],
      .comparison ⟨⟨"==", [], false⟩, "title", ["c"]⟩]

/-- One comparison is dropped and one fails; those before it are handed over, those behind are not.
Among texts nothing fails. -/
theorem resolve_in_order_scattered :
    ((skipping.resolve scattered "Task").exec {}).2.built.map (·.leaf.render) =
        ["title==\"a\"", "level==1"] ∧
      skipping.Orderly scattered "Task" {} ∧
      ∃ x, ((texts.resolve mixed "Person").exec {}).1 = .ok x ∧
        ((texts.resolve mixed "Person").exec {}).2.built = x.leaves.map fun l => ⟨l, false⟩ := by
  refine ⟨by decide +kernel, (resolve_in_order scattered "Task" {}).1 skipping, ?_⟩
  have hok : ((texts.resolve mixed "Person").exec {}).1.isOk = true := by decide +kernel
  rcases hexec : ((texts.resolve mixed "Person").exec {}).1 with _ | x
  · rw [hexec] at hok
    cases hok
  · exact ⟨x, rfl, (resolve_in_order mixed "Person" {}).2 texts rfl (fun _ _ => rfl) x hexec⟩

end Resolver

end FilterQuery
