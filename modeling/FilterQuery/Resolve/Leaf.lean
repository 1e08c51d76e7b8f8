/-
# FilterQuery.Resolve.Leaf -- comparisons made ready

A leaf is a comparison whose selector has been followed through the schema and whose arguments
have been read: what a storage layer needs to build a condition.
-/

import FilterQuery.Operator
import FilterQuery.Schema.Attribute
import FilterQuery.Value

namespace FilterQuery

/-- One step of a path: an attribute and the entity that owns it. -/
structure PathSegment where
  entity : String
  attr : Attribute
  deriving Repr, DecidableEq

/-- A resolved comparison: the entity against which the filter was resolved, the selector as it was
written, the attributes on the way, one for each step, and the arguments as values of a type. -/
structure Leaf where
  entity : String
  selector : String
  path : List PathSegment
  operator : Operator
  values : List Value
  valueType : ValueType
  deriving Repr

namespace Leaf

/-- Leaves are the same when their operators have the same primary symbol, their values are
pairwise the same, and all else is equal. -/
instance : BEq Leaf where
  beq a b := a.entity == b.entity && a.selector == b.selector && a.path == b.path &&
    a.operator == b.operator && a.values == b.values && a.valueType == b.valueType

/-- The names of the attributes on the way, dotted. -/
def attributePath (l : Leaf) : String := String.intercalate "." (l.path.map (·.attr.name))

/-- The last attribute. -/
def attribute? (l : Leaf) : Option Attribute := l.path.getLast?.map (·.attr)

/-- The leaf with other values, read at another type. -/
def withValues (l : Leaf) (values : List Value) (t : ValueType) : Leaf :=
  { l with values := values, valueType := t }

/-- The values: all in brackets for an operator that takes a list, else the first. -/
def renderValues (l : Leaf) : String :=
  if l.operator.multi then "[" ++ String.intercalate ", " (l.values.map Value.render) ++ "]"
  else match l.values with
    | v :: _ => v.render
    | [] => ""

/-- The text of a leaf. -/
def render (l : Leaf) : String := l.attributePath ++ l.operator.primary ++ l.renderValues

end Leaf

end FilterQuery
