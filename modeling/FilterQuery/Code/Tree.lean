/-
# FilterQuery.Code.Tree -- tokens with matched brackets

Whatever a stretch of program text means, its brackets match. So the first structure that tokens
get is that of their brackets: a row of trees, each of them a token or a pair of brackets with a
row in it (`Tree.ofTokens?`). A row has the text of its tokens, so what a reader takes from the
front of a row is known by its text (`textBetween`).
-/

import FilterQuery.Code.Token

namespace FilterQuery.Code

/-! ## Trees -/

/-- A token that is no bracket, or brackets and what stands in them. -/
inductive Tree where
  | leaf (t : Token)
  | group (d : Delimiter) (inside : List Tree)

/-- A row of trees. -/
abbrev Row := List Tree

mutual

/-- The closed up text of a tree. -/
def Tree.text : Tree → String
  | .leaf t => t.text
  | .group d inside => d.enclose (rowText inside)

/-- The closed up text of a row: the row as it is written. -/
def rowText : List Tree → String
  | [] => ""
  | t :: r => t.text ++ rowText r

end

/-- The text of the trees of `before` that are gone in `after`, the rest of it. -/
def textBetween (before after : Row) : String :=
  rowText (before.take (before.length - after.length))

/-! ## Building -/

/-- Brackets that are still open: the row in the innermost of them, the last tree first, and the
rows before and around each of them, from within. -/
structure Open where
  row : Row := []
  outer : List (Delimiter × Row) := []

namespace Open

/-- The brackets that are open behind a token; none where it closes what is not open. -/
def step (o : Open) : Token → Option Open
  | .opening d => some ⟨[], (d, o.row) :: o.outer⟩
  | .closing d => match o.outer with
    | (e, row) :: outer =>
      if d = e then some ⟨.group d o.row.reverse :: row, outer⟩ else none
    | [] => none
  | t => some { o with row := .leaf t :: o.row }

/-- The row, if no bracket is open. -/
def close (o : Open) : Option Row := if o.outer.isEmpty then some o.row.reverse else none

end Open

/-- The row that tokens make up, if their brackets match. -/
def Tree.ofTokens? (ts : List Token) : Option Row := do
  (← ts.foldlM Open.step {}).close

end FilterQuery.Code
