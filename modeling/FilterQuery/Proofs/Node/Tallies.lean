/-
# FilterQuery.Proofs.Node.Tallies -- the arguments of a tree are a tally of its comparisons

Both views of the arguments of a tree come about from below: each logical node starts with an empty
table and merges those of its children into it. How the comparisons are nested then plays no part in
the result. It is what the row of all comparisons, read from left to right, comes to
(`Gathers.node`), and that is a tally of the row: by selector, or by selector and in each selector
by primary symbol (`arguments_eq_tally`). So nothing is lost, however often a selector or an
operator comes up again in another part of the tree.
-/

import FilterQuery.Node.Arguments
import FilterQuery.Proofs.Table.Tally

namespace FilterQuery

/-! ## Merging as joining -/

theorem Arguments.merge_eq (t u : Arguments) :
    t.merge u = Table.mergeWith (fun old new => old ++ new) [] t u := rfl

theorem GroupedArguments.merge_eq (t u : GroupedArguments) :
    t.merge u = Table.mergeWith Arguments.merge .empty t u := rfl

/-- All arguments of some comparisons, one after the other. -/
def Comparison.allArguments (cs : List Comparison) : List String := cs.flatMap (·.arguments)

/-- The arguments of some comparisons by primary symbol. -/
def Comparison.bySymbol (cs : List Comparison) : Arguments :=
  .tally (·.operator.primary) allArguments cs

theorem Comparison.allArguments_append (cs ds : List Comparison) :
    allArguments cs ++ allArguments ds = allArguments (cs ++ ds) :=
  List.flatMap_append.symm

theorem Comparison.merge_bySymbol (cs ds : List Comparison) :
    (bySymbol cs).merge (bySymbol ds) = bySymbol (cs ++ ds) := by
  rw [Arguments.merge_eq]
  exact Table.mergeWith_tally allArguments_append cs ds

namespace Node

/-! ## Views made from below -/

/-- A view of a tree and of further children is made from below: a comparison has a view of its own,
and a logical node merges those of its children into the view of nothing. What is gathered in this
way is `value` of the comparisons. -/
structure Gathers {α : Type} (view : Node → α) (views : α → List Node → α)
    (merge : α → α → α) (value : List Comparison → α) : Prop where
  comparison : ∀ c, view (.comparison c) = value [c]
  logical : ∀ variant op children, view (.logical variant op children) = views (value []) children
  nil : ∀ a, views a [] = a
  cons : ∀ a n rest, views a (n :: rest) = views (merge a (view n)) rest
  merge : ∀ cs ds, merge (value cs) (value ds) = value (cs ++ ds)

section

variable {α : Type} {view : Node → α} {views : α → List Node → α} {merge : α → α → α}
  {value : List Comparison → α}

mutual

/-- A view made from below is the value of the comparisons, read from left to right. -/
theorem Gathers.node (h : Gathers view views merge value) : ∀ n : Node,
    view n = value n.comparisons
  | .comparison c => h.comparison c
  | .logical variant op children => by
    rw [h.logical, h.nodes [] children, Node.comparisons, List.nil_append]

/-- Further children bring their comparisons behind those that are there. -/
theorem Gathers.nodes (h : Gathers view views merge value) (cs : List Comparison) :
    ∀ ns : List Node, views (value cs) ns = value (cs ++ comparisonsAll ns)
  | [] => by rw [h.nil, comparisonsAll, List.append_nil]
  | n :: rest => by
    rw [h.cons, h.node n, h.merge, h.nodes _ rest, comparisonsAll, List.append_assoc]

end

end

/-! ## The arguments by selector -/

theorem gathers_arguments :
    Gathers arguments mergeArguments Arguments.merge
      (Table.tally (·.selector) Comparison.allArguments) where
  comparison c := by
    rw [Table.tally_singleton, arguments]
    simp [Comparison.allArguments]
  logical variant op children := by
    rw [arguments]
    rfl
  nil a := by rw [mergeArguments]
  cons a n rest := by rw [mergeArguments]
  merge := Table.mergeWith_tally Comparison.allArguments_append

theorem gathers_groupedArguments :
    Gathers groupedArguments mergeGroupedArguments GroupedArguments.merge
      (Table.tally (·.selector) Comparison.bySymbol) where
  comparison c := by
    rw [Table.tally_singleton, groupedArguments, Comparison.bySymbol, Table.tally_singleton]
    simp [Comparison.allArguments]
  logical variant op children := by
    rw [groupedArguments]
    rfl
  nil a := by rw [mergeGroupedArguments]
  cons a n rest := by rw [mergeGroupedArguments]
  merge := Table.mergeWith_tally Comparison.merge_bySymbol

/-- The arguments of a tree lose nothing. Their keys are the selectors of its comparisons, read from
left to right, in the order in which they first occur, and each has the arguments of all comparisons
with it, one after the other. The grouped arguments have the same keys in the same order; each has
the primary symbols of its comparisons in the order in which these first occur, and each of these
has the arguments of the comparisons with both. -/
theorem arguments_eq_tally (n : Node) :
    n.arguments =
        .tally (·.selector) (fun cs => cs.flatMap (·.arguments)) n.comparisons ∧
      n.groupedArguments =
        .tally (·.selector)
          (.tally (·.operator.primary) fun cs => cs.flatMap (·.arguments)) n.comparisons :=
  ⟨gathers_arguments.node n, gathers_groupedArguments.node n⟩

end Node

end FilterQuery
