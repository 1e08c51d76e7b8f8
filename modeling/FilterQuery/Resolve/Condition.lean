/-
# FilterQuery.Resolve.Condition -- building conditions

What a condition is, the storage layer decides: it says how to build one from a leaf, how to join
two, and which one always holds. For single operators it can be replaced by a custom predicate,
which names the type at which it wants its arguments and may be meant for attributes of one type
only.
-/

import FilterQuery.Error
import FilterQuery.Resolve.Leaf

namespace FilterQuery

/-- How conditions of type `C` are built. -/
structure ConditionBuilder (C : Type) where
  leaf : Leaf → Except Failure C
  and : C → C → C
  or : C → C → C
  always : C

/-- A condition for the comparisons of one operator, on attributes of one type or, if none is given,
of every type, and the type at which the arguments are read. -/
structure CustomPredicate (C : Type) where
  operator : Operator
  attributeType : Option ValueType := none
  argumentType : ValueType
  build : Leaf → Except Report C

end FilterQuery
