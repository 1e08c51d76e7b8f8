/-
# FilterQuery.Expression -- conditions that are plain trees

A filter expression is a condition that no storage layer has touched: a tree of leaves. Joining
two expressions takes the operands of an expression of the same kind out of it, on both sides,
so neither kind stands directly below itself.
-/

import FilterQuery.Resolve.Condition

namespace FilterQuery

/-- A tree of leaves: all operands of an "and" hold, one operand of an "or" does. -/
inductive Expression where
  | leaf (l : Leaf)
  | and (operands : List Expression)
  | or (operands : List Expression)
  | always
  deriving Repr

namespace Expression

mutual

/-- Expressions are the same when they have the same shape and the same leaves. -/
def same : Expression → Expression → Bool
  | leaf a, leaf b => a == b
  | and as, and bs => sameAll as bs
  | or as, or bs => sameAll as bs
  | always, always => true
  | _, _ => false

/-- Pairwise `same`. -/
def sameAll : List Expression → List Expression → Bool
  | [], [] => true
  | a :: as, b :: bs => same a b && sameAll as bs
  | _, _ => false

end

instance : BEq Expression := ⟨same⟩

mutual

/-- The leaves, from left to right. -/
def leaves : Expression → List Leaf
  | leaf l => [l]
  | and operands => leavesAll operands
  | or operands => leavesAll operands
  | always => []

/-- The leaves of some expressions, from left to right. -/
def leavesAll : List Expression → List Leaf
  | [] => []
  | x :: r => leaves x ++ leavesAll r

end

mutual

/-- The text of an expression. -/
def render : Expression → String
  | leaf l => l.render
  | and operands => "(" ++ renderAll " AND " operands ++ ")"
  | or operands => "(" ++ renderAll " OR " operands ++ ")"
  | always => "TRUE"

/-- The texts of operands with a word between them. -/
def renderAll (word : String) : List Expression → String
  | [] => ""
  | x :: r => render x ++ renderMore word r

/-- The texts of further operands with a word before each. -/
def renderMore (word : String) : List Expression → String
  | [] => ""
  | x :: r => word ++ render x ++ renderMore word r

end

/-- The operands of a conjunction; any other expression is its own only operand. -/
def conjuncts : Expression → List Expression
  | and operands => operands
  | x => [x]

/-- The operands of a disjunction; any other expression is its own only operand. -/
def disjuncts : Expression → List Expression
  | or operands => operands
  | x => [x]

/-- The leaf, if the expression is one. -/
def leaf? : Expression → Option Leaf
  | leaf l => some l
  | _ => none

/-- Expressions as conditions. -/
def builder : ConditionBuilder Expression where
  leaf l := .ok (leaf l)
  and x y := and (x.conjuncts ++ y.conjuncts)
  or x y := or (x.disjuncts ++ y.disjuncts)
  always := always

end Expression

end FilterQuery
