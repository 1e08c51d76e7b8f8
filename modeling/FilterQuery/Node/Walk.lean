/-
# FilterQuery.Node.Walk -- walking a tree

A walk visits each node of a tree before its children, and the children from left to right. The
path of a node is the path of its parent, a slash and its number among the children. Which visit a
logical node gets is decided by its variant.
-/

import FilterQuery.Node

namespace FilterQuery

/-- What a walk meets at a node: a comparison on a selector, or the joining of some number of
children. -/
inductive Visit where
  | comparison (path selector : String)
  | logical (path : String) (variant : Connective) (children : Nat)
  deriving Repr, DecidableEq

namespace Node

/-- The path of the child number `i`. -/
def childPath (path : String) (i : Nat) : String := s!"{path}/{i}"

mutual

/-- The visits of a walk, the root having the given path. -/
def walk (path : String) : Node → List Visit
  | comparison c => [.comparison path c.selector]
  | logical variant _ children =>
    .logical path variant children.length :: walkAll path 0 children

/-- The visits below a node, from its child number `i` on. -/
def walkAll (path : String) (i : Nat) : List Node → List Visit
  | [] => []
  | n :: r => walk (childPath path i) n ++ walkAll path (i + 1) r

end

end Node

end FilterQuery
