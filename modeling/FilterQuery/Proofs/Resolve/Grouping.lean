/-
# FilterQuery.Proofs.Resolve.Grouping -- grouping of equal connectives does not matter

Children of a logical node that are joined by the same connective can be merged into their parent
(`Node.flatten`). Expressions are joined in the same way: operands of the same kind are taken out,
so joining is associative, whatever the expressions are (`Expression.associative_join`). Trees that
are the same when they are merged therefore come to the same. That is an equality of runs: the
comparisons are resolved in the same order, so the same is remembered and handed over, and the same
failure ends it.

What is joined of well grouped expressions is well grouped (`Expression.Grouped`): each conjunction
and each disjunction has at least two operands, none of its own kind, and what always holds is not
among them. A leaf is well grouped, so without custom predicates, which may build anything, the
condition of a filter is well grouped, or there is none and what always holds takes its place.
-/

import FilterQuery.Proofs.Resolve.Order

namespace FilterQuery

/-! ## Merged trees -/

namespace Node

/-- The operands of a tree below a connective: its children if they are joined by the same one. -/
def operands (op : Connective) : Node → List Node
  | comparison c => [comparison c]
  | logical variant oq children => if oq = op then children else [logical variant oq children]

theorem operands_self (variant op : Connective) (children : List Node) :
    (logical variant op children).operands op = children := if_pos rfl

theorem operands_of_ne {op oq : Connective} (h : oq ≠ op) (variant : Connective)
    (children : List Node) :
    (logical variant oq children).operands op = [logical variant oq children] := if_neg h

mutual

/-- The tree with children merged into parents of the same connective, at every level. -/
def flatten : Node → Node
  | comparison c => comparison c
  | logical _ op children => joined op (flattenAll op children)

/-- The operands of some merged trees below a connective. -/
def flattenAll (op : Connective) : List Node → List Node
  | [] => []
  | n :: rest => (flatten n).operands op ++ flattenAll op rest

end

/-- No child is joined by the connective of its parent. -/
inductive Merged : Node → Prop
  | comparison (c : Comparison) : Merged (comparison c)
  | logical {variant op : Connective} {children : List Node} : (∀ n ∈ children, Merged n) →
      (∀ n ∈ children, ∀ variant' grandchildren, n ≠ .logical variant' op grandchildren) →
        Merged (logical variant op children)

/-- The operands of a merged tree are merged, and none is joined by the connective. -/
theorem Merged.operands {n : Node} (h : n.Merged) (op : Connective) :
    ∀ m ∈ n.operands op, m.Merged ∧ ∀ variant children, m ≠ .logical variant op children := by
  cases h with
  | comparison c =>
    intro m hm
    rw [List.mem_singleton.1 hm]
    exact ⟨.comparison c, by simp⟩
  | @logical variant oq children hmerged hne =>
    intro m hm
    by_cases hop : oq = op
    · subst hop
      rw [operands_self] at hm
      exact ⟨hmerged m hm, hne m hm⟩
    · rw [operands_of_ne hop, List.mem_singleton] at hm
      rw [hm]
      exact ⟨.logical hmerged hne, by simp [hop]⟩

mutual

/-- Merging leaves nothing to be merged. -/
theorem merged_flatten : ∀ n : Node, n.flatten.Merged
  | .comparison c => .comparison c
  | .logical _ op children => by
    have hall := merged_flattenAll op children
    rw [flatten, joined_eq]
    exact .logical (fun n hn => (hall n hn).1) fun n hn => (hall n hn).2

theorem merged_flattenAll (op : Connective) : ∀ ns : List Node,
    ∀ m ∈ flattenAll op ns, m.Merged ∧ ∀ variant children, m ≠ .logical variant op children
  | [], m, hm => nomatch hm
  | n :: rest, m, hm => by
    rw [flattenAll, List.mem_append] at hm
    rcases hm with hm | hm
    · exact (merged_flatten n).operands op m hm
    · exact merged_flattenAll op rest m hm

end

end Node

/-! ## Joining in any grouping -/

namespace Resolver

variable {C : Type} {r : Resolver C} {entity : String}

theorem combine_some (r : Resolver C) (op : Connective) (x y : C) :
    r.combine op (some x) (some y) = some (r.builder.join op x y) := by
  cases op <;> rfl

theorem combine_assoc (hr : ∀ op, Std.Associative (r.builder.join op)) (op : Connective)
    (x? y? z? : Option C) :
    r.combine op (r.combine op x? y?) z? = r.combine op x? (r.combine op y? z?) := by
  cases x? with
  | none => rfl
  | some x =>
    cases y? with
    | none => rfl
    | some y =>
      cases z? with
      | none => rw [combine_none, combine_none]
      | some z => rw [combine_some, combine_some, combine_some, combine_some, (hr op).assoc]

theorem nodes_append (r : Resolver C) (op : Connective) (before : Option C) (ns ms : List Node) :
    r.nodes entity op before (ns ++ ms) =
      r.nodes entity op before ns >>= fun b => r.nodes entity op b ms := by
  induction ns generalizing before with
  | nil => rw [List.nil_append, nodes, pure_bind]
  | cons n rest ih =>
    rw [List.cons_append, nodes, nodes, bind_assoc]
    exact bind_congr fun c => ih _

/-- What has been joined before can as well be joined to what is joined of the rest. -/
theorem nodes_combine (hr : ∀ op, Std.Associative (r.builder.join op)) (op : Connective)
    (before b : Option C) (ns : List Node) :
    r.nodes entity op (r.combine op before b) ns =
      r.nodes entity op b ns >>= fun c => pure (r.combine op before c) := by
  induction ns generalizing b with
  | nil => rw [nodes, nodes, pure_bind]
  | cons n rest ih =>
    rw [nodes, nodes, bind_assoc]
    refine bind_congr fun c => ?_
    rw [combine_assoc hr]
    exact ih _

/-- The operands of a tree come to the same as the tree itself. -/
theorem nodes_operands (hr : ∀ op, Std.Associative (r.builder.join op)) (op : Connective)
    (before : Option C) (n : Node) (rest : List Node) :
    r.nodes entity op before (n.operands op ++ rest) = r.nodes entity op before (n :: rest) := by
  cases n with
  | comparison c => rfl
  | logical variant oq children =>
    by_cases hop : oq = op
    · subst hop
      -- the children go on from what has been joined before, the node's condition is joined to it
      have hchildren : r.nodes entity oq before children =
          r.nodes entity oq none children >>= fun c => pure (r.combine oq before c) := by
        rw [← nodes_combine hr, combine_none]
      rw [Node.operands_self, nodes_append, hchildren, nodes, node, bind_assoc]
      exact bind_congr fun c => pure_bind _ _
    · rw [Node.operands_of_ne hop]
      rfl

mutual

/-- A tree comes to the same when it is merged. -/
theorem node_flatten (hr : ∀ op, Std.Associative (r.builder.join op)) : ∀ n : Node,
    r.node entity n.flatten = r.node entity n
  | .comparison c => by rw [Node.flatten]
  | .logical _ op children => by
    rw [Node.flatten, Node.joined_eq, node, node]
    exact nodes_flattenAll hr op none children

theorem nodes_flattenAll (hr : ∀ op, Std.Associative (r.builder.join op)) (op : Connective)
    (before : Option C) : ∀ ns : List Node,
      r.nodes entity op before (Node.flattenAll op ns) = r.nodes entity op before ns
  | [] => by rw [Node.flattenAll]
  | n :: rest => by
    rw [Node.flattenAll, nodes_operands hr, nodes, nodes, node_flatten hr n]
    exact bind_congr fun c => nodes_flattenAll hr op _ rest

end

/-- Whatever conditions are, if it does not matter how three of them are grouped, then it does not
matter how a tree is. -/
theorem resolve_flatten (hr : ∀ op, Std.Associative (r.builder.join op)) (n : Node)
    (entity : String) : r.resolve n.flatten entity = r.resolve n entity := by
  rw [resolve, resolve, node_flatten hr]

end Resolver

/-! ## Well grouped expressions -/

namespace Expression

/-- The expression of some operands. -/
def logical : Connective → List Expression → Expression
  | .and => and
  | .or => or

/-- The operands of an expression below a connective. -/
def operands : Connective → Expression → List Expression
  | .and => conjuncts
  | .or => disjuncts

theorem join_eq_logical (op : Connective) (x y : Expression) :
    builder.join op x y = logical op (x.operands op ++ y.operands op) := by
  cases op <;> rfl

theorem operands_self (op : Connective) (xs : List Expression) :
    (logical op xs).operands op = xs := by
  cases op <;> rfl

theorem operands_of_ne {op oq : Connective} (h : oq ≠ op) (xs : List Expression) :
    (logical oq xs).operands op = [logical oq xs] := by
  cases op <;> cases oq <;> first | rfl | exact absurd rfl h

theorem logical_ne_logical {op oq : Connective} (h : oq ≠ op) (xs ys : List Expression) :
    logical oq xs ≠ logical op ys := by
  intro heq
  have hsame := congrArg (operands op) heq
  cases op <;> cases oq <;> first | exact absurd rfl h | cases heq

/-- Joining takes operands out on both sides, so that the grouping is lost. -/
theorem associative_join (op : Connective) : Std.Associative (builder.join op) := by
  refine ⟨fun x y z => ?_⟩
  simp only [join_eq_logical, operands_self, List.append_assoc]

/-- At least two operands, none of the kind of the whole, and no place for what always holds. -/
inductive Grouped : Expression → Prop
  | leaf (l : Leaf) : Grouped (leaf l)
  | logical {op : Connective} {xs : List Expression} : 2 ≤ xs.length → (∀ x ∈ xs, Grouped x) →
      (∀ x ∈ xs, ∀ ys, x ≠ logical op ys) → Grouped (logical op xs)

namespace Grouped

variable {x y : Expression}

/-- There are operands, and they are well grouped and not of the kind of the connective. -/
theorem operands (h : x.Grouped) (op : Connective) : 0 < (x.operands op).length ∧
    ∀ z ∈ x.operands op, z.Grouped ∧ ∀ ys, z ≠ .logical op ys := by
  cases h with
  | leaf l =>
    have hself : (Expression.leaf l).operands op = [.leaf l] := by cases op <;> rfl
    rw [hself]
    refine ⟨Nat.one_pos, ?_⟩
    intro z hz
    rw [List.mem_singleton.1 hz]
    exact ⟨.leaf l, fun ys => by cases op <;> exact Expression.noConfusion⟩
  | @logical oq xs hlength hall hne =>
    by_cases hop : oq = op
    · subst hop
      rw [operands_self]
      exact ⟨by omega, fun z hz => ⟨hall z hz, hne z hz⟩⟩
    · rw [operands_of_ne hop]
      refine ⟨Nat.one_pos, ?_⟩
      intro z hz
      rw [List.mem_singleton.1 hz]
      exact ⟨.logical hlength hall hne, logical_ne_logical hop xs⟩

theorem join (hx : x.Grouped) (hy : y.Grouped) (op : Connective) :
    (builder.join op x y).Grouped := by
  obtain ⟨hxlength, hxall⟩ := hx.operands op
  obtain ⟨hylength, hyall⟩ := hy.operands op
  have hlength : 2 ≤ (x.operands op ++ y.operands op).length := by
    rw [List.length_append]
    omega
  have hall : ∀ z ∈ x.operands op ++ y.operands op, z.Grouped ∧ ∀ ys, z ≠ .logical op ys := by
    intro z hz
    rcases List.mem_append.1 hz with hz | hz
    · exact hxall z hz
    · exact hyall z hz
  rw [join_eq_logical]
  exact .logical hlength (fun z hz => (hall z hz).1) fun z hz => (hall z hz).2

theorem joinAll {op : Connective} {xs : List Expression} (h : ∀ x ∈ xs, x.Grouped)
    (hy : builder.joinAll op xs = some y) : y.Grouped := by
  cases xs with
  | nil => cases hy
  | cons x rest =>
    cases hy
    refine List.foldlRecOn rest (builder.join op) (h x List.mem_cons_self) ?_
    intro z hz w hw
    exact hz.join (h w (List.mem_cons_of_mem x hw)) op

end Grouped

variable {of : Comparison → Option Expression}

mutual

/-- The condition of a tree is well grouped if those of its comparisons are. -/
theorem grouped_condition? (h : ∀ c x, of c = some x → x.Grouped) : ∀ (n : Node) (x : Expression),
    n.condition? builder of = some x → x.Grouped
  | .comparison c, x, hx => h c x hx
  | .logical _ _ children, _, hx => .joinAll (grouped_conditions h children) hx

theorem grouped_conditions (h : ∀ c x, of c = some x → x.Grouped) : ∀ (ns : List Node),
    ∀ x ∈ Node.conditions builder of ns, x.Grouped
  | [], x, hx => nomatch hx
  | n :: rest, x, hx => by
    rw [Node.conditions, List.mem_append, Option.mem_toList] at hx
    rcases hx with hx | hx
    · exact grouped_condition? h n x hx
    · exact grouped_conditions h rest x hx

end

end Expression

/-! ## Resolving -/

namespace Resolver

open Run

variable {r : Resolver Expression} {entity : String} {t : Trace}

/-- Without custom predicates the condition of a comparison is a leaf. -/
theorem grouped_fate (hbuilder : r.builder = Expression.builder)
    (hcustom : ∀ symbol type, r.settings.predicate? symbol type = none) {c : Comparison}
    {x : Expression} (h : (r.fate entity t c).condition? = some x) : x.Grouped := by
  rw [(condition?_fate entity t hbuilder hcustom c).1] at h
  obtain ⟨made, -, rfl⟩ := Option.map_eq_some_iff.1 h
  exact .leaf made.leaf

theorem grouped_resolve (hbuilder : r.builder = Expression.builder)
    (hcustom : ∀ symbol type, r.settings.predicate? symbol type = none) {n : Node}
    {x : Expression} (h : ((r.resolve n entity).exec t).1 = .ok x) : x = .always ∨ x.Grouped := by
  rw [(exec_resolve_eq r n entity t).1, Fate.outcome, hbuilder] at h
  split at h
  · cases h
  · cases h
    cases hcondition : n.condition? Expression.builder fun c => (r.fate entity t c).condition? with
    | none => exact .inl rfl
    | some x =>
      right
      exact Expression.grouped_condition? (fun c y hy => grouped_fate hbuilder hcustom hy) n x
        hcondition

/-- Trees that are the same when they are merged resolve to the same, be it a condition or a
failure, where expressions are built. The runs are equal, whatever the settings, the schema and what
is remembered. Where no custom predicate is found, what they resolve to is what always holds, or a
well grouped expression. -/
theorem resolve_regroups (hbuilder : r.builder = Expression.builder) (entity : String) :
    (∀ n m : Node, n.flatten = m.flatten → r.resolve n entity = r.resolve m entity) ∧
      ((∀ symbol type, r.settings.predicate? symbol type = none) →
        ∀ (n : Node) (t : Trace) (x : Expression),
          ((r.resolve n entity).exec t).1 = .ok x → x = .always ∨ x.Grouped) := by
  constructor
  · intro n m hsame
    have hr : ∀ op, Std.Associative (r.builder.join op) := by
      rw [hbuilder]
      exact Expression.associative_join
    rw [← resolve_flatten hr n, hsame, resolve_flatten hr m]
  · intro hcustom n t x hx
    exact grouped_resolve hbuilder hcustom hx

/-- A comparison of an attribute with a text. -/
def textual (selector : String) : Node := .comparison ⟨⟨"==", [], false⟩, selector, ["x"]⟩

/-- Five comparisons, of which those that come first are grouped together. -/
def leftward : Node :=
  .logical .and .and
    [.logical .and .and [textual "a", textual "b"],
      .logical .or .or [.logical .or .or [textual "c", textual "d"], textual "e"]]

/-- The same comparisons, of which those that come last are grouped together. -/
def rightward : Node :=
  .logical .and .and
    [textual "a",
      .logical .and .and
        [textual "b",
          .logical .or .or [textual "c", .logical .or .or [textual "d", textual "e"]]]]

/-- Both groupings come to the expression without any. -/
theorem resolve_regroups_rightward :
    leftward.flatten = rightward.flatten ∧
      texts.resolve leftward "Person" = texts.resolve rightward "Person" ∧
      ∃ x, ((texts.resolve leftward "Person").exec {}).1 = .ok x ∧
        x.render = "(a==\"x\" AND b==\"x\" AND (c==\"x\" OR d==\"x\" OR e==\"x\"))" ∧
        x.Grouped := by
  have hsame : leftward.flatten = rightward.flatten := rfl
  obtain ⟨hequal, hgrouped⟩ := resolve_regroups (r := texts) rfl "Person"
  refine ⟨hsame, hequal leftward rightward hsame, ?_⟩
  have hrender : ((texts.resolve leftward "Person").exec {}).1.toOption.map Expression.render =
      some "(a==\"x\" AND b==\"x\" AND (c==\"x\" OR d==\"x\" OR e==\"x\"))" := by decide +kernel
  obtain ⟨x, hx, hx'⟩ := Option.map_eq_some_iff.1 hrender
  refine ⟨x, eq_ok_of_toOption hx, hx', ?_⟩
  rcases hgrouped (fun _ _ => rfl) leftward {} x (eq_ok_of_toOption hx) with rfl | h
  · exact absurd hx' (by decide)
  · exact h

end Resolver

end FilterQuery
