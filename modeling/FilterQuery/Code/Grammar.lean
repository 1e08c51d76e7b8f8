/-
# FilterQuery.Code.Grammar -- the forms that contain each other

Types hold values, values hold types, and both hold blocks of statements with items in them. A
`Grammar` is one reader for each of these forms. Every form is read, in a module of its own, by a
function of the grammar that its parts are read with; `Code.Language` closes the circle.
-/

import FilterQuery.Code.Reader
import FilterQuery.Declaration.TypeExpr

namespace FilterQuery.Code

/-- An operand of a value, `verbatim` if it is of a form that has no other text than the one it was
written with. -/
structure Operand where
  text : String
  verbatim : Bool := false
  deriving Repr, DecidableEq

/-- Readers of the forms that contain each other. Among types a sum of bounds is one, and a value
may hold records with fields outside brackets of its own, if so said. `early` reads a value where a
statement can stand, and `pattern` a pattern without alternatives. -/
structure Grammar where
  type : Bool → Reader TypeExpr
  bound : Reader String
  value : Bool → Reader String
  operand : Bool → Reader Operand
  early : Reader String
  pattern : Reader String
  statement : Reader String
  item : Reader String

namespace Grammar

/-- The grammar that refuses everything. -/
def empty : Grammar where
  type _ := refuse
  bound := refuse
  value _ := refuse
  operand _ := refuse
  early := refuse
  pattern := refuse
  statement := refuse
  item := refuse

/-- A type, where sums of bounds are types. -/
def typeText (g : Grammar) : Reader String := do return (← g.type true).text

/-- A type, where a sum of bounds ends behind its first bound. -/
def singleText (g : Grammar) : Reader String := do return (← g.type false).text

/-- The type of a result, if there is an arrow. -/
def result (g : Grammar) : Reader String := ifAhead (isSign "->") (inOrder [sign "->", g.typeText])

/-! ## Attributes -/

/-- A path of names without arguments. -/
def plainPath : Reader String :=
  inOrder [sign? "::", pathWord, repeatWhile (isSign "::") (inOrder [sign "::", pathWord])]

/-- What an attribute holds: a path, and brackets that are not read or a value. -/
def attributeInside (g : Grammar) : Reader String :=
  inOrder [choose [(isWord "unsafe", word "unsafe"), (fun _ => true, plainPath)], choose [
    (List.isEmpty, return ""),
    (isSign "=", inOrder [sign "=", g.value true]),
    (fun _ => true, anyGroup)]]

/-- An attribute. -/
def oneAttribute (g : Grammar) : Reader String :=
  inOrder [sign "#", sign? "!", group .square g.attributeInside]

/-- The attributes of what follows. -/
def attributes (g : Grammar) : Reader String := repeatWhile isAttribute g.oneAttribute

/-- The attributes of what encloses them. -/
def innerAttributes (g : Grammar) : Reader String := repeatWhile isInnerAttribute g.oneAttribute

/-! ## Blocks -/

/-- A statement, or a semicolon behind one. -/
def statementOrEnd (g : Grammar) : Reader String :=
  choose [(isSign ";", sign ";"), (fun _ => true, g.statement)]

/-- A block of statements. -/
def block (g : Grammar) : Reader String :=
  group .curly (inOrder [g.innerAttributes, repeatWhile (!List.isEmpty ·) g.statementOrEnd])

/-- A constant among types: a literal, a name or a block. -/
def constant (g : Grammar) : Reader String :=
  choose [(isLiteral, literal), (isName, name), (isGroup .curly, g.block)]

end Grammar

end FilterQuery.Code
