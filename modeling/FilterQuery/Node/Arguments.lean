/-
# FilterQuery.Node.Arguments -- the arguments of a tree by selector

Two views that forget the logical structure of a tree and keep the arguments, in the order in
which selectors (and, in the second view, operators) first occur. A logical node merges the
tables of its children one after the other.
-/

import FilterQuery.Node
import FilterQuery.Table

namespace FilterQuery

/-- Texts by key. -/
abbrev Arguments := Table String (List String)

/-- Texts by selector and primary symbol. -/
abbrev GroupedArguments := Table String Arguments

namespace Arguments

/-- The table with texts appended at a key. -/
def append (t : Arguments) (key : String) (texts : List String) : Arguments :=
  t.alter key fun old => old.getD [] ++ texts

/-- The first table with the entries of the second appended. -/
def merge (t u : Arguments) : Arguments :=
  u.entries.foldl (fun acc e => acc.append e.1 e.2) t

end Arguments

/-- The first table with the entries of the second merged in. -/
def GroupedArguments.merge (t u : GroupedArguments) : GroupedArguments :=
  u.entries.foldl (fun acc e => acc.alter e.1 fun old => (old.getD .empty).merge e.2) t

namespace Node

mutual

/-- The arguments of all comparisons by selector. -/
def arguments : Node → Arguments
  | comparison c => .ofList [(c.selector, c.arguments)]
  | logical _ _ children => mergeArguments .empty children

/-- A table with the arguments of some trees merged in. -/
def mergeArguments (t : Arguments) : List Node → Arguments
  | [] => t
  | n :: r => mergeArguments (t.merge n.arguments) r

end

mutual

/-- The arguments of all comparisons by selector, and for each selector by primary symbol. -/
def groupedArguments : Node → GroupedArguments
  | comparison c => .ofList [(c.selector, .ofList [(c.operator.primary, c.arguments)])]
  | logical _ _ children => mergeGroupedArguments .empty children

/-- A table with the grouped arguments of some trees merged in. -/
def mergeGroupedArguments (t : GroupedArguments) : List Node → GroupedArguments
  | [] => t
  | n :: r => mergeGroupedArguments (t.merge n.groupedArguments) r

end

end Node

end FilterQuery
