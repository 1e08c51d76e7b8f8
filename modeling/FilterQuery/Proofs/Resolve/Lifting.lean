/-
# FilterQuery.Proofs.Resolve.Lifting -- from single steps to whole trees

A run touches its trace at two places only: where it asks for an attribute, and where it hands a
leaf over. So whatever asking and handing over keep, resolving keeps. That is stated once here, in
three layers that follow the layers of the resolver:

* a path ensures what each of its steps ensures (`ensures_path_of`);
* a comparison ensures what its path and the leaf made of it ensure (`ensures_comparison_of`);
* a tree ensures what its comparisons ensure (`ensures_node_of`, `ensures_resolve_of`).

Two things follow for whole trees. What holds of each leaf that can be made holds of all that are
handed over (`forall_built_of`), and a tree comes to the same wherever its comparisons do
(`resolve_congr`).
-/

import FilterQuery.Proofs.Resolve.Walks

namespace FilterQuery.Resolver

open Run

variable {C : Type} {r : Resolver C} {entity : String} {I : Trace → Prop}

/-! ## Paths -/

/-- A step ensures of the walk what asking ensures of the attribute. The schema is asked only for
what the access lists allow. -/
theorem ensures_enter_of {S : Walk → Prop} {w : Walk} {name : String}
    (hdescribe : r.settings.access.allows w.entity name = true →
      Ensures I (r.describe w.entity name) fun a? => ∀ a, a? = some a → S (w.onTo a)) :
    Ensures I (r.enter w name) S := by
  cases hscalar : w.scalar.isSome with
  | true =>
    rw [enter_of_scalar r hscalar]
    exact .throw _
  | false =>
    rw [enter_of_entity r hscalar]
    refine .bind (.ofExcept fun _ h => h) fun _ hcheck => ?_
    refine (hdescribe (AccessLists.allows_of_check hcheck)).bind fun a? ha => ?_
    cases a? with
    | none => exact .throw _
    | some a => exact .pure (ha a rfl)

/-- What holds of a walk at its start and is ensured by each step, holds of the finished walk. -/
theorem ensures_path_of {S : Walk → Prop} (hstart : S { entity := entity })
    (henter : ∀ w name, S w → Ensures I (r.enter w name) S) (selector : String) :
    Ensures I (r.path entity selector) fun x => ∃ w, S w ∧ w.outcome = some x := by
  have hfollow : ∀ w segment, S w → Ensures I (r.follow w segment) S := by
    intro w segment hw
    rw [follow]
    split
    · exact .throw _
    · exact .foldlM henter _ w hw
  rw [path_eq]
  refine (Ensures.foldlM hfollow _ _ hstart).bind fun w hw => ?_
  split
  · rename_i x hx
    exact .pure ⟨w, hw, hx⟩
  · exact .throw _

/-- A path keeps what asking for attributes keeps. -/
theorem ensures_path_of_describe
    (hdescribe : ∀ entity name, Ensures I (r.describe entity name) fun _ => True)
    (entity selector : String) : Ensures I (r.path entity selector) fun _ => True := by
  have henter : ∀ (w : Walk) (name : String), True → Ensures I (r.enter w name) fun _ => True := by
    intro w name _
    exact ensures_enter_of fun _ => (hdescribe w.entity name).mono fun _ _ _ _ => trivial
  exact (ensures_path_of trivial henter selector).mono fun _ _ => trivial

/-- Asking for an attribute hands nothing over. -/
theorem built_describe (r : Resolver C) (entity name : String) (t : Trace) :
    ((r.describe entity name).exec t).2.built = t.built := by
  rw [describe]
  cases r.cached <;> rfl

/-- Following a path hands nothing over. -/
theorem built_path (r : Resolver C) (entity selector : String) (t : Trace) :
    ((r.path entity selector).exec t).2.built = t.built := by
  refine (ensures_path_of_describe (I := fun u => u.built = t.built) ?_ entity selector t rfl).1
  intro entity name u hu
  exact ⟨(built_describe r entity name u).trans hu, fun _ _ => trivial⟩

/-! ## Comparisons -/

/-- A comparison keeps what its path keeps, if that is also kept when the leaf is handed over. -/
theorem ensures_comparison_of {Q : List PathSegment × ValueType → Prop} {c : Comparison}
    (hpath : Ensures I (r.path entity c.selector) Q)
    (hhand : ∀ x values, Q x →
      r.settings.convertAll (r.maker c.operator.primary x.2).argumentType c.arguments =
        .ok (some values) →
      ∀ t, I t → I (t.hand (r.construction entity c x values))) :
    Ensures I (r.comparison entity c) fun _ => True := by
  rw [comparison_eq_conclude]
  refine hpath.bind fun x hx => ?_
  refine .bind (.ofExcept fun _ h => h) fun values? hvalues => ?_
  cases values? with
  | none => exact .pure trivial
  | some values =>
    refine .bind (P := fun _ => True) ?_ fun _ _ => .pure trivial
    intro t ht
    rw [exec_construct]
    exact ⟨hhand x values hx hvalues t ht, fun _ _ => trivial⟩

/-! ## Trees -/

mutual

/-- A tree keeps what each of its comparisons keeps. -/
theorem ensures_node_of : ∀ n : Node,
    (∀ c ∈ n.comparisons, Ensures I (r.comparison entity c) fun _ => True) →
      Ensures I (r.node entity n) fun _ => True
  | .comparison c, h => by
    rw [node]
    exact h c List.mem_cons_self
  | .logical _ op children, h => by
    rw [node]
    exact ensures_nodes_of op none children h

theorem ensures_nodes_of (op : Connective) (before : Option C) : ∀ ns : List Node,
    (∀ c ∈ Node.comparisonsAll ns, Ensures I (r.comparison entity c) fun _ => True) →
      Ensures I (r.nodes entity op before ns) fun _ => True
  | [], _ => by
    rw [nodes]
    exact .pure trivial
  | n :: rest, h => by
    rw [nodes]
    rw [Node.comparisonsAll] at h
    have hn := ensures_node_of n fun c hc => h c (List.mem_append_left _ hc)
    exact hn.bind fun c _ =>
      ensures_nodes_of op (r.combine op before c) rest fun c hc => h c (List.mem_append_right _ hc)

end

theorem ensures_resolve_of {n : Node}
    (h : ∀ c ∈ n.comparisons, Ensures I (r.comparison entity c) fun _ => True) :
    Ensures I (r.resolve n entity) fun _ => True := by
  rw [resolve]
  refine (ensures_node_of n h).bind fun c? _ => ?_
  cases c? <;> exact .pure trivial

/-- What holds of all that can be made of the comparisons of a tree, holds of all that is handed
over when the tree is resolved. -/
theorem forall_built_of {P : Construction → Prop} {n : Node}
    (h : ∀ c ∈ n.comparisons, ∀ x values,
      r.settings.convertAll (r.maker c.operator.primary x.2).argumentType c.arguments =
        .ok (some values) → P (r.construction entity c x values))
    (k : SchemaCache) : ∀ made ∈ ((r.resolve n entity).exec { cache := k }).2.built, P made := by
  have hdescribe : ∀ entity name,
      Ensures (fun t => ∀ made ∈ t.built, P made) (r.describe entity name) fun _ => True := by
    intro entity name t ht
    refine ⟨?_, fun _ _ => trivial⟩
    show ∀ made ∈ ((r.describe entity name).exec t).2.built, P made
    rw [built_describe]
    exact ht
  have hcomparison : ∀ c ∈ n.comparisons,
      Ensures (fun t => ∀ made ∈ t.built, P made) (r.comparison entity c) fun _ => True := by
    intro c hc
    refine ensures_comparison_of (ensures_path_of_describe hdescribe entity c.selector) ?_
    intro x values _ hvalues t ht made hmade
    rcases List.mem_append.1 hmade with hmade | hmade
    · exact ht made hmade
    · rw [List.mem_singleton.1 hmade]
      exact h c hc x values hvalues
  have hstart : ∀ made ∈ ({ cache := k } : Trace).built, P made := fun _ hmade => nomatch hmade
  exact (ensures_resolve_of hcomparison { cache := k } hstart).1

mutual

/-- A tree comes to the same under resolvers that treat comparisons alike and join alike. -/
theorem node_congr {r' : Resolver C} (hbuilder : r.builder = r'.builder)
    (hcomparison : ∀ c, r.comparison entity c = r'.comparison entity c) : ∀ n : Node,
      r.node entity n = r'.node entity n
  | .comparison c => by
    rw [node, node]
    exact hcomparison c
  | .logical _ op children => by
    rw [node, node]
    exact nodes_congr hbuilder hcomparison op none children

theorem nodes_congr {r' : Resolver C} (hbuilder : r.builder = r'.builder)
    (hcomparison : ∀ c, r.comparison entity c = r'.comparison entity c) (op : Connective)
    (before : Option C) : ∀ ns : List Node,
      r.nodes entity op before ns = r'.nodes entity op before ns
  | [] => by rw [nodes, nodes]
  | n :: rest => by
    have hcombine : r.combine op = r'.combine op := by
      funext x y
      cases x <;> cases y <;> simp only [combine, hbuilder]
    rw [nodes, nodes, node_congr hbuilder hcomparison n, hcombine]
    exact bind_congr fun c => nodes_congr hbuilder hcomparison op _ rest

end

theorem resolve_congr {r' : Resolver C} (hbuilder : r.builder = r'.builder)
    (hcomparison : ∀ c, r.comparison entity c = r'.comparison entity c) (n : Node) :
    r.resolve n entity = r'.resolve n entity := by
  rw [resolve, resolve, node_congr hbuilder hcomparison n, hbuilder]

end FilterQuery.Resolver
