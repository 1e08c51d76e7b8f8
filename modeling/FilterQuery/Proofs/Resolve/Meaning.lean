/-
# FilterQuery.Proofs.Resolve.Meaning -- resolving keeps what a filter says

Given which leaves hold, an expression is true or false (`Expression.eval`), and given which
comparisons hold, so is a tree (`Node.eval`). A tree and the expression to which it resolves are
true together when each comparison counts as the leaf to which it resolves by itself.

The expression is built by joining from the left, and joining takes operands out of expressions
of the same kind. `eval_and` and `eval_or` say that this flattening is harmless, so what a fold
has built so far is as good as its truth value. That a comparison resolves by itself as it does
among others is `agrees_comparison`: what other comparisons leave in the cache is not seen.
-/

import FilterQuery.Expression
import FilterQuery.Proofs.Node.Building
import FilterQuery.Proofs.Resolve.Views

namespace FilterQuery

/-! ## Truth -/

namespace Expression

mutual

/-- The truth of an expression, given which leaves hold. -/
def eval (v : Leaf → Bool) : Expression → Bool
  | leaf l => v l
  | and operands => evalAll v operands
  | or operands => evalAny v operands
  | always => true

/-- Whether all expressions are true. -/
def evalAll (v : Leaf → Bool) : List Expression → Bool
  | [] => true
  | x :: r => eval v x && evalAll v r

/-- Whether one of the expressions is true. -/
def evalAny (v : Leaf → Bool) : List Expression → Bool
  | [] => false
  | x :: r => eval v x || evalAny v r

end

variable (v : Leaf → Bool)

theorem evalAll_append (xs ys : List Expression) :
    evalAll v (xs ++ ys) = (evalAll v xs && evalAll v ys) := by
  induction xs with
  | nil => rfl
  | cons x r ih => rw [List.cons_append, evalAll, evalAll, ih, Bool.and_assoc]

theorem evalAny_append (xs ys : List Expression) :
    evalAny v (xs ++ ys) = (evalAny v xs || evalAny v ys) := by
  induction xs with
  | nil => rfl
  | cons x r ih => rw [List.cons_append, evalAny, evalAny, ih, Bool.or_assoc]

theorem evalAll_conjuncts (x : Expression) : evalAll v x.conjuncts = x.eval v := by
  cases x with
  | and operands => rfl
  | _ => exact Bool.and_true _

theorem evalAny_disjuncts (x : Expression) : evalAny v x.disjuncts = x.eval v := by
  cases x with
  | or operands => rfl
  | _ => exact Bool.or_false _

/-- Taking conjunctions apart does not change what joining says. -/
theorem eval_and (x y : Expression) : (builder.and x y).eval v = (x.eval v && y.eval v) := by
  show evalAll v (x.conjuncts ++ y.conjuncts) = _
  rw [evalAll_append, evalAll_conjuncts, evalAll_conjuncts]

/-- Taking disjunctions apart does not change what joining says. -/
theorem eval_or (x y : Expression) : (builder.or x y).eval v = (x.eval v || y.eval v) := by
  show evalAny v (x.disjuncts ++ y.disjuncts) = _
  rw [evalAny_append, evalAny_disjuncts, evalAny_disjuncts]

end Expression

/-- The truth of two joined conditions. -/
def Connective.eval : Connective → Bool → Bool → Bool
  | .and, a, b => a && b
  | .or, a, b => a || b

namespace Node

mutual

/-- The truth of a tree, given which comparisons hold. -/
def eval (w : Comparison → Bool) : Node → Bool
  | comparison c => w c
  | logical _ .and children => evalAll w children
  | logical _ .or children => evalAny w children

/-- Whether all trees are true. -/
def evalAll (w : Comparison → Bool) : List Node → Bool
  | [] => true
  | n :: r => eval w n && evalAll w r

/-- Whether one of the trees is true. -/
def evalAny (w : Comparison → Bool) : List Node → Bool
  | [] => false
  | n :: r => eval w n || evalAny w r

end

/-- The truth of a logical node, computed from the left. -/
theorem eval_logical (w : Comparison → Bool) (variant op : Connective) (n : Node)
    (rest : List Node) :
    (logical variant op (n :: rest)).eval w =
      rest.foldl (fun b m => op.eval b (m.eval w)) (n.eval w) := by
  cases op with
  | and =>
    have hfold : ∀ (ms : List Node) (b : Bool),
        ms.foldl (fun b m => b && m.eval w) b = (b && evalAll w ms) := by
      intro ms
      induction ms with
      | nil => simp [evalAll]
      | cons m ms ih =>
        intro b
        rw [List.foldl_cons, ih, evalAll, Bool.and_assoc]
    exact (hfold rest _).symm
  | or =>
    have hfold : ∀ (ms : List Node) (b : Bool),
        ms.foldl (fun b m => b || m.eval w) b = (b || evalAny w ms) := by
      intro ms
      induction ms with
      | nil => simp [evalAny]
      | cons m ms ih =>
        intro b
        rw [List.foldl_cons, ih, evalAny, Bool.or_assoc]
    exact (hfold rest _).symm

end Node

/-! ## Comparisons by themselves -/

namespace Resolver

open Run

variable {r : Resolver Expression} {entity : String} {t u u' : Trace}

/-- The leaf to which a comparison resolves by itself, if it resolves to one. -/
def leafOf? (r : Resolver Expression) (entity : String) (t : Trace) (c : Comparison) :
    Option Leaf :=
  match ((r.resolve (.comparison c) entity).exec t).1 with
  | .ok (.leaf l) => some l
  | _ => none

/-- Only skipping drops a comparison. -/
theorem convertAll_ne_none {C : Type} {s : Settings C} (hpolicy : s.policy ≠ .skip)
    (t : ValueType) : ∀ as : List String, s.convertAll t as ≠ .ok none
  | [] => by
    rw [Settings.convertAll]
    rintro ⟨⟩
  | a :: as => by
    have ih := convertAll_ne_none hpolicy t as
    rw [Settings.convertAll]
    split
    · intro h
      obtain ⟨vs, hvs, h⟩ := map_eq_ok_iff.1 h
      cases vs with
      | none => exact ih hvs
      | some vs => cases h
    · rintro ⟨⟩
    · rename_i hskip
      exact absurd hskip hpolicy
    · intro h
      obtain ⟨vs, hvs, h⟩ := map_eq_ok_iff.1 h
      cases vs with
      | none => exact ih hvs
      | some vs => cases h

/-- A comparison that is resolved somewhere in a run is resolved to the same leaf by itself: what
has been remembered in between is not seen. -/
theorem leafOf?_of_exec {c : Comparison} {l : Leaf} (hu : r.Steady (r.sees t) u)
    (h : (r.comparison entity c).exec u = (.ok (some (.leaf l)), u')) :
    r.leafOf? entity t c = some l := by
  -- both runs come to what the plain resolver comes to, wherever that starts
  have hthere : ((r.comparison entity c).exec u).1 =
      (((r.plain (r.sees t)).comparison entity c).exec u).1 := (agrees_comparison entity c u u hu).1
  have hhere : ((r.comparison entity c).exec t).1 =
      (((r.plain (r.sees t)).comparison entity c).exec u).1 :=
    (agrees_comparison entity c t u (r.steady_self t)).1
  have halone : ((r.resolve (.comparison c) entity).exec t).1 = .ok (.leaf l) := by
    rw [resolve, node, exec_bind]
    rw [← hthere, h] at hhere
    rcases hexec : (r.comparison entity c).exec t with ⟨result, t'⟩
    rw [hexec] at hhere
    cases hhere
    rfl
  rw [leafOf?, halone]

/-- Every comparison of the tree resolves to a leaf by itself, and the expression says of leaves
what the tree says of its comparisons. -/
structure Means (r : Resolver Expression) (entity : String) (t : Trace) (n : Node)
    (x : Expression) : Prop where
  leaves : ∀ c ∈ n.comparisons, ∃ l, r.leafOf? entity t c = some l
  truth : ∀ v, x.eval v = n.eval fun c => (r.leafOf? entity t c).any v

/-- The resolver builds expressions, of every comparison one: nothing is built in another way, and
nothing is dropped. -/
structure Faithful (r : Resolver Expression) : Prop where
  builder : r.builder = Expression.builder
  custom : ∀ symbol type, r.settings.predicate? symbol type = none
  policy : r.settings.policy ≠ .skip

/-- A comparison that is resolved to something is resolved to a leaf. -/
theorem exec_comparison_eq_leaf (hr : r.Faithful) {c : Comparison} {y? : Option Expression}
    (h : (r.comparison entity c).exec u = (.ok y?, u')) : ∃ l, y? = some (.leaf l) := by
  rw [comparison_eq] at h
  obtain ⟨x, v, -, h⟩ := exec_bind_eq_ok h
  have hmaker : r.maker c.operator.primary x.2 = ⟨false, x.2, Expression.builder.leaf⟩ := by
    rw [maker, hr.custom, hr.builder]
  simp only [hmaker] at h
  obtain ⟨values?, v', hvalues, h⟩ := exec_bind_eq_ok h
  cases values? with
  | none =>
    have hnone : r.settings.convertAll x.2 c.arguments = .ok none := congrArg Prod.fst hvalues
    exact absurd hnone (convertAll_ne_none hr.policy x.2 c.arguments)
  | some values =>
    obtain ⟨y, v'', hy, h⟩ := exec_bind_eq_ok h
    cases h
    obtain ⟨-, -, -, hy⟩ := exec_bind_eq_ok hy
    cases hy
    exact ⟨_, rfl⟩

/-- A tree of one comparison means its leaf. -/
theorem means_comparison (hr : r.Faithful) {c : Comparison} {y? : Option Expression}
    (hu : r.Steady (r.sees t) u) (h : (r.comparison entity c).exec u = (.ok y?, u')) :
    r.Steady (r.sees t) u' ∧ ∃ y, y? = some y ∧ r.Means entity t (.comparison c) y := by
  refine ⟨?_, ?_⟩
  · have hkeep : r.Steady (r.sees t) ((r.comparison entity c).exec u).2 :=
      (agrees_comparison entity c u u hu).2
    rwa [h] at hkeep
  · obtain ⟨l, rfl⟩ := exec_comparison_eq_leaf hr h
    have hleaf := leafOf?_of_exec hu h
    refine ⟨.leaf l, rfl, ?_, ?_⟩
    · intro c' hc'
      rw [List.mem_singleton.1 hc']
      exact ⟨l, hleaf⟩
    · intro v
      rw [Node.eval, hleaf]
      rfl

theorem eval_combine (hr : r.Faithful) (op : Connective) (x y : Expression) :
    ∃ z, r.combine op (some x) (some y) = some z ∧
      ∀ v, z.eval v = op.eval (x.eval v) (y.eval v) := by
  cases op with
  | and =>
    refine ⟨_, rfl, ?_⟩
    intro v
    rw [hr.builder, Expression.eval_and]
    rfl
  | or =>
    refine ⟨_, rfl, ?_⟩
    intro v
    rw [hr.builder, Expression.eval_or]
    rfl

mutual

/-- What is seen stays, and the tree means the expression. -/
theorem means_node (hr : r.Faithful) : ∀ (n : Node) (u u' : Trace) (y? : Option Expression),
    n.Built → r.Steady (r.sees t) u → (r.node entity n).exec u = (.ok y?, u') →
      r.Steady (r.sees t) u' ∧ ∃ y, y? = some y ∧ r.Means entity t n y
  | .comparison c, u, u', y?, _, hu, h => by
    rw [node] at h
    exact means_comparison hr hu h
  | .logical variant op [], u, u', y?, hn, hu, h => by
    have hlength := (hn.children variant op [] rfl).1
    exact absurd hlength (by decide)
  | .logical variant op (n :: rest), u, u', y?, hn, hu, h => by
    obtain ⟨-, hbuilt⟩ := hn.children variant op (n :: rest) rfl
    rw [node, nodes] at h
    -- the first child is what the others are joined to
    obtain ⟨b?, u₁, hb, h⟩ := exec_bind_eq_ok h
    obtain ⟨hu₁, b, rfl, hmeans⟩ := means_node hr n u u₁ b? (hbuilt n List.mem_cons_self) hu hb
    obtain ⟨hu', y, rfl, hleaves, htruth⟩ := means_nodes hr op rest u₁ u' b y?
      (fun m hm => hbuilt m (List.mem_cons_of_mem n hm)) hu₁ h
    refine ⟨hu', y, rfl, ?_, ?_⟩
    · intro c hc
      obtain ⟨m, hm, hcm⟩ := Node.mem_comparisons_logical.1 hc
      rcases List.mem_cons.1 hm with rfl | hm
      · exact hmeans.leaves c hcm
      · exact hleaves m hm c hcm
    · intro v
      rw [htruth, hmeans.truth, Node.eval_logical]

/-- Joining trees to what has been built is joining their truth values to its truth. -/
theorem means_nodes (hr : r.Faithful) (op : Connective) : ∀ (ns : List Node) (u u' : Trace)
    (b : Expression) (y? : Option Expression), (∀ m ∈ ns, m.Built) → r.Steady (r.sees t) u →
      (r.nodes entity op (some b) ns).exec u = (.ok y?, u') →
        r.Steady (r.sees t) u' ∧ ∃ y, y? = some y ∧
          (∀ m ∈ ns, ∀ c ∈ m.comparisons, ∃ l, r.leafOf? entity t c = some l) ∧
          ∀ v, y.eval v = ns.foldl
            (fun a m => op.eval a (m.eval fun c => (r.leafOf? entity t c).any v)) (b.eval v)
  | [], u, u', b, y?, _, hu, h => by
    rw [nodes] at h
    cases h
    exact ⟨hu, b, rfl, by simp, fun _ => rfl⟩
  | n :: rest, u, u', b, y?, hn, hu, h => by
    rw [nodes] at h
    obtain ⟨c?, u₁, hc, h⟩ := exec_bind_eq_ok h
    obtain ⟨hu₁, c, rfl, hmeans⟩ := means_node hr n u u₁ c? (hn n List.mem_cons_self) hu hc
    obtain ⟨z, hz, hzeval⟩ := eval_combine hr op b c
    rw [hz] at h
    obtain ⟨hu', y, rfl, hleaves, htruth⟩ := means_nodes hr op rest u₁ u' z y?
      (fun m hm => hn m (List.mem_cons_of_mem n hm)) hu₁ h
    refine ⟨hu', y, rfl, ?_, ?_⟩
    · intro m hm
      rcases List.mem_cons.1 hm with rfl | hm
      · exact hmeans.leaves
      · exact hleaves m hm
    · intro v
      rw [htruth, hzeval, hmeans.truth, List.foldl_cons]

end

/-- Resolving keeps the meaning of a filter. If a tree resolves to an expression, under a policy
that drops nothing and without custom predicates, then each of its comparisons resolves to a leaf
by itself, and whichever leaves hold, the expression is true just when the tree is. -/
theorem eval_resolve (hbuilder : r.builder = Expression.builder)
    (hcustom : ∀ symbol type, r.settings.predicate? symbol type = none)
    (hpolicy : r.settings.policy = .reject ∨ r.settings.policy = .passNull) {n : Node}
    (hn : n.Built) {x : Expression} (h : ((r.resolve n entity).exec t).1 = .ok x) :
    (∀ c ∈ n.comparisons, ∃ l, r.leafOf? entity t c = some l) ∧
      ∀ v : Leaf → Bool, x.eval v = n.eval fun c => (r.leafOf? entity t c).any v := by
  have hr : r.Faithful := by
    refine ⟨hbuilder, hcustom, ?_⟩
    rcases hpolicy with hp | hp <;> rw [hp] <;> exact FailurePolicy.noConfusion
  rcases hexec : (r.resolve n entity).exec t with ⟨result, t'⟩
  rw [hexec] at h
  cases h
  rw [resolve] at hexec
  obtain ⟨y?, u, hy, hexec⟩ := exec_bind_eq_ok hexec
  obtain ⟨-, y, rfl, hmeans⟩ := means_node hr n t u y? hn (r.steady_self t) hy
  cases hexec
  exact ⟨hmeans.leaves, hmeans.truth⟩

/-- An "or" over an "and"; one attribute stands in it twice and is remembered in between. -/
def mixed : Node :=
  .logical .or .or
    [.logical .and .and
      [.comparison ⟨⟨"==", [], false⟩, "name", ["x"]⟩,
        .comparison ⟨⟨"==", [], false⟩, "city", ["y"]⟩],
      .comparison ⟨⟨"==", [], false⟩, "name", ["z"]⟩]

theorem built_mixed : mixed.Built := by
  have hequal : Operator.ofSymbols ["=="] false = .ok ⟨"==", [], false⟩ := by rfl
  have hleaf : ∀ selector argument, Text.isBare selector = true →
      Node.Built (.comparison ⟨⟨"==", [], false⟩, selector, [argument]⟩) := by
    intro selector argument hbare
    exact .comparison hequal (Comparison.make_eq_ok_iff.2 ⟨hbare, by simp, by simp, rfl⟩)
  exact .pair .or (.pair .and (hleaf "name" "x" (by decide)) (hleaf "city" "y" (by decide)))
    (hleaf "name" "z" (by decide))

/-- A resolver that describes every attribute as a text. -/
def texts : Resolver Expression :=
  ⟨{}, fun _ name => some (.basic name .string), true, Expression.builder⟩

theorem eval_resolve_mixed :
    ∃ x, ((texts.resolve mixed "Person").exec {}).1 = .ok x ∧
      (∀ c ∈ mixed.comparisons, ∃ l, texts.leafOf? "Person" {} c = some l) ∧
        ∀ v : Leaf → Bool, x.eval v = mixed.eval fun c => (texts.leafOf? "Person" {} c).any v := by
  have hok : ((texts.resolve mixed "Person").exec {}).1.isOk = true := by decide +kernel
  rcases hexec : ((texts.resolve mixed "Person").exec {}).1 with _ | x
  · rw [hexec] at hok
    cases hok
  · exact ⟨x, rfl, eval_resolve rfl (fun _ _ => rfl) (.inl rfl) built_mixed hexec⟩

end Resolver

end FilterQuery
