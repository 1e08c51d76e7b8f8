/-
# FilterQuery.Proofs.Language.Trees -- what the trees of phrases are like

The tree of a phrase has the comparisons of the phrase, in their order (`comparisons_tree`). It has
been built by the two ways of building if the registered operators have been (`built_tree`).

Nesting and height are two measures. A group may hold an "or" of "and"s, so each level of groups
makes room for two levels of logical nodes, and the whole phrase counts as one more group
(`height_tree_le`): the tree is at most twice as high as the groups are deep, and two more.
-/

import FilterQuery.Proofs.Language.Reading

namespace FilterQuery

open Text

/-- All registered operators have been built. -/
def Registry.Built (r : Registry) : Prop :=
  ∀ symbol o, r.get? symbol = some o → ∃ symbols multi, Operator.ofSymbols symbols multi = .ok o

namespace Grammar

variable {r : Registry}

/-! ## Nodes under one connective -/

theorem comparisons_collapse (op : Connective) (ns : List Node) :
    (collapse op ns).comparisons = ns.flatMap Node.comparisons := by
  match ns with
  | [n] => simp [collapse]
  | [] => rfl
  | n :: m :: rest =>
    rw [← Node.comparisonsAll_eq_flatMap]
    rfl

theorem height_collapse_le (op : Connective) (ns : List Node) :
    (collapse op ns).height ≤ Node.heightAll ns + 1 := by
  match ns with
  | [n] =>
    have h : n.height ≤ Node.heightAll [n] := Nat.le_max_left _ _
    exact Nat.le_succ_of_le h
  | [] => exact Nat.le_refl _
  | n :: m :: rest => exact Nat.le_refl _

/-- Joining children is putting them under the connective. -/
theorem join_eq_collapse (op : Connective) {ns : List Node} (h : ns ≠ []) :
    Node.join op ns = .ok (collapse op ns) := by
  match ns, h with
  | [_], _ => rfl
  | n :: m :: rest, _ => exact congrArg Except.ok (Node.joined_eq op (n :: m :: rest))

theorem built_collapse (op : Connective) {ns : List Node} (hne : ns ≠ [])
    (h : ∀ m ∈ ns, m.Built) : (collapse op ns).Built :=
  .join h (join_eq_collapse op hne)

/-! ## Comparisons -/

/-- The comparison that a phrase stands for. -/
def Clause.comparison (r : Registry) (c : Clause) : Comparison :=
  ⟨meaning r c.symbol, c.selector, c.right.texts⟩

mutual

theorem Disjunction.comparisons_trees : ∀ p : Disjunction,
    (p.trees r).flatMap Node.comparisons = p.clauses.map (Clause.comparison r)
  | .last p => by
    rw [Disjunction.trees, List.flatMap_singleton, comparisons_collapse]
    exact Conjunction.comparisons_trees p
  | .comma p rest => by
    rw [Disjunction.trees, List.flatMap_cons, comparisons_collapse,
      Conjunction.comparisons_trees p, Disjunction.comparisons_trees rest, Disjunction.clauses,
      List.map_append]

theorem Conjunction.comparisons_trees : ∀ p : Conjunction,
    (p.trees r).flatMap Node.comparisons = p.clauses.map (Clause.comparison r)
  | .last p => by
    rw [Conjunction.trees, List.flatMap_singleton]
    exact Constraint.comparisons_tree p
  | .semicolon p rest => by
    rw [Conjunction.trees, List.flatMap_cons, Constraint.comparisons_tree p,
      Conjunction.comparisons_trees rest, Conjunction.clauses, List.map_append]

theorem Constraint.comparisons_tree : ∀ p : Constraint,
    (p.tree r).comparisons = p.clauses.map (Clause.comparison r)
  | .group p => by
    rw [Constraint.tree, comparisons_collapse]
    exact Disjunction.comparisons_trees p
  | .clause _ => rfl

end

/-- The comparisons of the tree are those of the phrase. -/
theorem Disjunction.comparisons_tree (p : Disjunction) :
    (p.tree r).comparisons = p.clauses.map (Clause.comparison r) := by
  rw [tree, comparisons_collapse, comparisons_trees]

/-! ## Height -/

mutual

theorem Disjunction.heightAll_trees_le : ∀ p : Disjunction,
    Node.heightAll (p.trees r) ≤ 2 * p.depth + 1
  | .last p => by
    have hp := Conjunction.heightAll_trees_le p
    have hcollapse := height_collapse_le .and (p.trees r)
    simp only [Disjunction.trees, Disjunction.depth, Node.heightAll]
    omega
  | .comma p rest => by
    have hp := Conjunction.heightAll_trees_le p
    have hrest := Disjunction.heightAll_trees_le rest
    have hcollapse := height_collapse_le .and (p.trees r)
    simp only [Disjunction.trees, Disjunction.depth, Node.heightAll]
    omega

theorem Conjunction.heightAll_trees_le : ∀ p : Conjunction,
    Node.heightAll (p.trees r) ≤ 2 * p.depth
  | .last p => by
    have hp := Constraint.height_tree_le p
    simp only [Conjunction.trees, Conjunction.depth, Node.heightAll]
    omega
  | .semicolon p rest => by
    have hp := Constraint.height_tree_le p
    have hrest := Conjunction.heightAll_trees_le rest
    simp only [Conjunction.trees, Conjunction.depth, Node.heightAll]
    omega

theorem Constraint.height_tree_le : ∀ p : Constraint, (p.tree r).height ≤ 2 * p.depth
  | .group p => by
    -- the "or" of the group is one level more than its alternatives
    have hp := Disjunction.heightAll_trees_le p
    have hcollapse := height_collapse_le .or (p.trees r)
    simp only [Constraint.tree, Constraint.depth]
    omega
  | .clause _ => Nat.zero_le _

end

/-- The tree is at most twice as high as groups are nested, and two more. -/
theorem Disjunction.height_tree_le (p : Disjunction) : (p.tree r).height ≤ 2 * (p.depth + 1) := by
  have hp := heightAll_trees_le (r := r) p
  have hcollapse := height_collapse_le .or (p.trees r)
  rw [tree]
  omega

/-! ## Building -/

theorem Disjunction.trees_ne_nil (p : Disjunction) : p.trees r ≠ [] := by
  cases p <;> simp [trees]

theorem Conjunction.trees_ne_nil (p : Conjunction) : p.trees r ≠ [] := by
  cases p <;> simp [trees]

/-- A comparison that fits is built when its operator has been. -/
theorem Clause.built_tree {c : Clause} (hr : r.Built) (hs : isBare c.selector = true)
    (hf : c.Fits r) : (c.tree r).Built := by
  obtain ⟨o, ho, hcount⟩ := hf
  obtain ⟨symbols, multi, hoperator⟩ := hr _ o ho
  rw [tree, meaning, ho]
  exact .comparison hoperator
    (Comparison.make_eq_ok_iff.2 ⟨hs, c.right.texts_ne_nil, hcount, rfl⟩)

mutual

theorem Disjunction.built_trees : ∀ p : Disjunction, (∀ c ∈ p.clauses, (c.tree r).Built) →
    ∀ m ∈ p.trees r, m.Built
  | .last p, h, m, hm => by
    rw [List.mem_singleton.1 hm]
    exact built_collapse .and p.trees_ne_nil (Conjunction.built_trees p h)
  | .comma p rest, h, m, hm => by
    simp only [Disjunction.clauses, List.mem_append] at h
    rcases List.mem_cons.1 hm with rfl | hm
    · exact built_collapse .and p.trees_ne_nil
        (Conjunction.built_trees p fun c hc => h c (.inl hc))
    · exact Disjunction.built_trees rest (fun c hc => h c (.inr hc)) m hm

theorem Conjunction.built_trees : ∀ p : Conjunction, (∀ c ∈ p.clauses, (c.tree r).Built) →
    ∀ m ∈ p.trees r, m.Built
  | .last p, h, m, hm => by
    rw [List.mem_singleton.1 hm]
    exact Constraint.built_tree p h
  | .semicolon p rest, h, m, hm => by
    simp only [Conjunction.clauses, List.mem_append] at h
    rcases List.mem_cons.1 hm with rfl | hm
    · exact Constraint.built_tree p fun c hc => h c (.inl hc)
    · exact Conjunction.built_trees rest (fun c hc => h c (.inr hc)) m hm

theorem Constraint.built_tree : ∀ p : Constraint, (∀ c ∈ p.clauses, (c.tree r).Built) →
    (p.tree r).Built
  | .group p, h => built_collapse .or p.trees_ne_nil (Disjunction.built_trees p h)
  | .clause c, h => h c List.mem_cons_self

end

/-- The tree of a phrase is built when its comparisons are. -/
theorem Disjunction.built_tree {p : Disjunction} (h : ∀ c ∈ p.clauses, (c.tree r).Built) :
    (p.tree r).Built :=
  built_collapse .or p.trees_ne_nil (built_trees p h)

end Grammar

end FilterQuery
