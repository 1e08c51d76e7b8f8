/-
# FilterQuery.Code.Language -- the grammar of the language

The forms that contain each other are read with a grammar for their parts. `Language.upTo n` is the
grammar of the forms that are nested at most `n` deep: nothing is nested in the forms at depth zero,
and the forms at each further depth have parts of the depth before. A row nests no deeper than it
has trees, on all levels together, so a grammar that is deep enough for a text can be told from the
number of its tokens.
-/

import FilterQuery.Code.Item
import FilterQuery.Code.Token.Lexer

namespace FilterQuery.Code

namespace Grammar

/-- The grammar whose forms have parts of a given grammar. -/
def next (g : Grammar) : Grammar where
  type := g.anyType
  bound := g.oneBound
  value := g.anyValue
  operand := g.anyOperand
  early := g.earlyValue
  pattern := g.singlePattern
  statement := g.anyStatement
  item := g.anyItem

end Grammar

namespace Language

/-- The grammar of forms that are nested at most so deep. -/
def upTo : Nat → Grammar
  | 0 => .empty
  | n + 1 => (upTo n).next

/-- What a reader of the language makes of a text. It must read the text to its end. -/
def read? {α : Type} (p : Grammar → Reader α) (s : String) : Option α := do
  let tokens := Token.read s
  let (a, rest) ← (p (upTo (4 * tokens.length + 8))).run (← Tree.ofTokens? tokens)
  if rest.isEmpty then some a else none

end Language

end FilterQuery.Code
