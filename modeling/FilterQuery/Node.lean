/-
# FilterQuery.Node -- the tree of a filter

A filter is a tree of comparisons joined by "and" and "or". `Comparison.make` and `Node.join` are
the only ways in which the library builds one: a comparison has a selector of unreserved
characters and as many arguments as its operator takes, and a joined node with one child is that
child. A logical node names its connective twice, as its variant, under which it is visited, and as
the operator between its children; `Node.joined` makes the two the same.

`Node.render` writes the canonical text. All logical nodes get parentheses, arguments are quoted
where they must be, and all operators are written with their primary symbols.
-/

import FilterQuery.Operator
import FilterQuery.Text.Quoted
import FilterQuery.Text.Unreserved

namespace FilterQuery

open Text

/-- How the children of a logical node are joined: all must hold, or one. -/
inductive Connective where
  | and
  | or
  deriving Repr, DecidableEq

/-- The character between the children in canonical text. -/
def Connective.symbol : Connective → String
  | .and => ";"
  | .or => ","

/-! ## Comparisons -/

/-- A comparison of a selected attribute with arguments, as they were written. The selector is the
dotted path of the attribute. -/
structure Comparison where
  operator : Operator
  selector : String
  arguments : List String
  deriving Repr

namespace Comparison

/-- Comparisons are the same when their operators have the same primary symbol and all else is
equal. -/
instance : BEq Comparison where
  beq a b := a.operator == b.operator && a.selector == b.selector && a.arguments == b.arguments

/-- The comparison with the given parts. The selector is looked at first, then whether there is
an argument, then whether there are too many. -/
def make (operator : Operator) (selector : String) (arguments : List String) :
    Except Failure Comparison :=
  if isBlankText selector then .error .blankSelector
  else match selector.toList.find? (fun c => !isUnreserved c) with
    | some c => .error (.reservedInSelector selector c)
    | none =>
      if arguments.isEmpty then .error (.noArgument selector)
      else if !operator.multi && arguments.length != 1 then
        .error (.argumentCount operator.primary arguments.length)
      else .ok ⟨operator, selector, arguments⟩

/-- The comparison with another operator. -/
def withOperator (c : Comparison) (operator : Operator) : Except Failure Comparison :=
  make operator c.selector c.arguments

/-- The comparison with another selector. -/
def withSelector (c : Comparison) (selector : String) : Except Failure Comparison :=
  make c.operator selector c.arguments

/-- The comparison with other arguments. -/
def withArguments (c : Comparison) (arguments : List String) : Except Failure Comparison :=
  make c.operator c.selector arguments

/-- An argument that stands alone: bare if it can be, else in quotes. -/
def renderArgument (a : String) : String := if isBare a then a else Quoted.quote a

/-- The right hand side: a list in which all is quoted, or the one argument. -/
def renderArguments (c : Comparison) : String :=
  if c.operator.multi then "(" ++ String.intercalate "," (c.arguments.map Quoted.quote) ++ ")"
  else match c.arguments with
    | a :: _ => renderArgument a
    | [] => ""

/-- The canonical text. -/
def render (c : Comparison) : String :=
  c.selector ++ c.operator.primary ++ c.renderArguments

end Comparison

/-! ## Trees -/

/-- A filter: a comparison, or children in their written order. A logical node is of one of two
variants and has an operator by which its children are joined. -/
inductive Node where
  | comparison (c : Comparison)
  | logical (variant op : Connective) (children : List Node)
  deriving Repr

namespace Node

/-- The logical node with an operator, of the variant that goes with the operator. -/
def joined (op : Connective) (children : List Node) : Node :=
  match op with
  | .and => .logical .and op children
  | .or => .logical .or op children

theorem joined_eq (op : Connective) (children : List Node) :
    joined op children = .logical op op children := by
  cases op <;> rfl

/-- Joins children; one child alone is the result itself. -/
def join (op : Connective) : List Node → Except Failure Node
  | [] => .error .noChild
  | [n] => .ok n
  | n :: m :: r => .ok (joined op (n :: m :: r))

/-- Joins a child with the ones before it, the nearest of which comes first. -/
def gather (op : Connective) (last : Node) : List Node → Node
  | [] => last
  | n :: r => joined op ((last :: n :: r).reverse)

/-- The comparison with the given parts, as a tree. -/
def compare (operator : Operator) (selector : String) (arguments : List String) :
    Except Failure Node :=
  (Comparison.make operator selector arguments).map .comparison

/-- Whether the node joins children. -/
def isLogical : Node → Bool
  | comparison _ => false
  | logical _ _ _ => true

mutual

/-- Trees are the same when they have the same shape and the same comparisons. -/
def same : Node → Node → Bool
  | comparison a, comparison b => a == b
  | logical v op as, logical w oq bs => v == w && op == oq && sameAll as bs
  | _, _ => false

/-- Pairwise `same`. -/
def sameAll : List Node → List Node → Bool
  | [], [] => true
  | a :: as, b :: bs => same a b && sameAll as bs
  | _, _ => false

end

instance : BEq Node := ⟨same⟩

mutual

/-- The canonical text of a tree. -/
def render : Node → String
  | comparison c => c.render
  | logical _ op children => "(" ++ renderAll op children ++ ")"

/-- The canonical texts of children with the symbol of `op` between them. -/
def renderAll (op : Connective) : List Node → String
  | [] => ""
  | n :: r => render n ++ renderMore op r

/-- The canonical texts of further children, the symbol of `op` before each. -/
def renderMore (op : Connective) : List Node → String
  | [] => ""
  | n :: r => op.symbol ++ render n ++ renderMore op r

end

mutual

/-- The number of logical nodes on the longest way to a comparison. -/
def height : Node → Nat
  | comparison _ => 0
  | logical _ _ children => heightAll children + 1

/-- The greatest height. -/
def heightAll : List Node → Nat
  | [] => 0
  | n :: r => max (height n) (heightAll r)

end

mutual

/-- The comparisons of a tree, from left to right. -/
def comparisons : Node → List Comparison
  | comparison c => [c]
  | logical _ _ children => comparisonsAll children

/-- The comparisons of the children, from left to right. -/
def comparisonsAll : List Node → List Comparison
  | [] => []
  | n :: r => comparisons n ++ comparisonsAll r

end

/-- The operator and the children of a logical node. -/
def children? : Node → Option (Connective × List Node)
  | comparison _ => none
  | logical _ op children => some (op, children)

end Node

end FilterQuery
