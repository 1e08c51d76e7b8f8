/-
# FilterQuery.Code.Reader -- reading rows of trees

A reader takes trees from the front of a row, or refuses the row. What most readers make of the
trees is a text, and it need not be theirs: some lists are put into another order, and some signs
are dropped. Where a form has no other text than the one it was written with, `orAsWritten` gives
that one.

Which of several forms stands at the front of a row can be told from the first few trees. Readers
decide by tests of rows and never come back on a decision.
-/

import FilterQuery.Code.Tree

namespace FilterQuery.Code

/-- Takes trees from the front of a row, or refuses it. -/
abbrev Reader := StateT Row Option

/-! ## How a row starts -/

/-- Whether a row starts with some marks without blanks between them. -/
def startsMarks : List Char → Row → Bool
  | [], _ => true
  | [c], .leaf (.mark d _) :: _ => c == d
  | c :: cs, .leaf (.mark d joint) :: r => c == d && joint && startsMarks cs r
  | _, _ => false

/-- Whether a row starts with a sign. The sign may be the start of a longer one. -/
def isSign (s : String) (r : Row) : Bool := startsMarks s.toList r

/-- Whether a row starts with one of some signs. -/
def isSignOf (ss : List String) (r : Row) : Bool := ss.any fun s => isSign s r

/-- The word that a row starts with. -/
def word? : Row → Option String
  | .leaf (.word w) :: _ => some w
  | _ => none

/-- Whether a row starts with a given word. -/
def isWord (w : String) (r : Row) : Bool := word? r == some w

/-- Whether a row starts with one of some words. -/
def isWordOf (ws : List String) (r : Row) : Bool := (word? r).any ws.contains

/-- Whether a row starts with a word, which may be a keyword. -/
def isAnyWord (r : Row) : Bool := (word? r).isSome

/-- Whether a row starts with a name. -/
def isName (r : Row) : Bool := (word? r).any fun w => !keywords.contains w

/-- Whether a row starts with a name or `_`. -/
def isNameOrBlank (r : Row) : Bool := isName r || isWord "_" r

/-- Whether a row starts with a word that can stand in a path. -/
def isPathWord (r : Row) : Bool := isName r || isWordOf pathKeywords r

/-- Whether a row starts with a lifetime. -/
def isLifetime : Row → Bool
  | .leaf (.lifetime _) :: _ => true
  | _ => false

/-- Whether a row starts with a number. -/
def isNumber : Row → Bool
  | .leaf (.literal s) :: _ => s.toList.head?.any Char.isDigit
  | _ => false

/-- Whether a row starts with a string of characters. -/
def isString : Row → Bool
  | .leaf (.literal s) :: _ => match s.toList with
    | '"' :: _ | 'r' :: _ => true
    | _ => false
  | _ => false

/-- Whether a row starts with a literal: truth values are literals, and numbers may be negative. -/
def isLiteral : Row → Bool
  | .leaf (.literal _) :: _ => true
  | .leaf (.mark '-' _) :: r => isNumber r
  | r => isWordOf ["true", "false"] r

/-- Whether a row starts with brackets. -/
def isGroup (d : Delimiter) : Row → Bool
  | .group e _ :: _ => d == e
  | _ => false

/-- Whether a row starts with `:` that is no part of `::`. -/
def isColon (r : Row) : Bool := isSign ":" r && !isSign "::" r

/-- Whether a row starts with `.` that is no part of `..`. -/
def isDot (r : Row) : Bool := isSign "." r && !isSign ".." r

/-- Whether a row starts with `!` that is no part of `!=`. -/
def isBang (r : Row) : Bool := isSign "!" r && !isSign "!=" r

/-- A row without a word at its front, if the word stands there. -/
def behindWord (w : String) (r : Row) : Row := if isWord w r then r.tail else r

/-- Whether a row starts with an attribute of what follows. -/
def isAttribute (r : Row) : Bool := isSign "#" r && isGroup .square r.tail

/-- Whether a row starts with an attribute of what encloses it. -/
def isInnerAttribute (r : Row) : Bool := isSign "#" r && isSign "!" r.tail

/-- A row without the attributes at its front. -/
def behindAttributes : Row → Row
  | .leaf (.mark '#' _) :: .group .square _ :: r => behindAttributes r
  | r => r

/-! ## Single tokens and groups -/

/-- Refuses every row. -/
def refuse {α : Type} : Reader α := fun _ => none

/-- A sign. -/
def sign (s : String) : Reader String := fun r =>
  if isSign s r then some (s, r.drop s.length) else none

/-- A word that passes a test. -/
def wordThat (p : String → Bool) : Reader String := fun
  | .leaf (.word w) :: r => if p w then some (w, r) else none
  | _ => none

/-- A given word. -/
def word (w : String) : Reader String := wordThat (· == w)

/-- A word, which may be a keyword. -/
def anyWord : Reader String := wordThat fun _ => true

/-- A name. -/
def name : Reader String := wordThat fun w => !keywords.contains w

/-- A word that can stand in a path. -/
def pathWord : Reader String := wordThat fun w => !keywords.contains w || pathKeywords.contains w

/-- A lifetime. -/
def lifetime : Reader String := fun
  | .leaf (.lifetime s) :: r => some (s, r)
  | _ => none

/-- A literal. -/
def literal : Reader String := fun
  | .leaf (.mark '-' _) :: .leaf (.literal s) :: r => some ("-" ++ closedUp s, r)
  | .leaf (.literal s) :: r => some (closedUp s, r)
  | .leaf (.word w) :: r => if w = "true" ∨ w = "false" then some (w, r) else none
  | _ => none

/-- Brackets of any kind, as they are written. -/
def anyGroup : Reader String := fun
  | .group d inside :: r => some (d.enclose (rowText inside), r)
  | _ => none

/-- Brackets, and what a reader makes of all that stands in them; nothing where it cannot read all
of it. The second part is the inside as it is written. -/
def within {α : Type} (d : Delimiter) (p : Reader α) : Reader (Option α × String) := fun
  | .group e inside :: r =>
    if d ≠ e then none
    else match p.run inside with
      | some (a, []) => some ((some a, rowText inside), r)
      | _ => some ((none, rowText inside), r)
  | _ => none

/-- Brackets with a text in them. An inside that the reader cannot read stands as it is
written. -/
def group (d : Delimiter) (p : Reader String) : Reader String := do
  let (s, written) ← within d p
  return d.enclose (s.getD written)

/-- Everything up to a sign and the sign, as it is written. -/
def through (s : String) : Reader String
  | [] => none
  | t :: r =>
    if isSign s (t :: r) then sign s (t :: r)
    else do
      let (u, rest) ← through s r
      return (t.text ++ u, rest)

/-! ## Readers one after another -/

/-- What readers make of one row, one after another. -/
def inOrder : List (Reader String) → Reader String
  | [] => return ""
  | p :: ps => do
    let s ← p
    return s ++ (← inOrder ps)

/-- What a reader makes of a row that passes a test, and no text of any other row. -/
def ifAhead (test : Row → Bool) (p : Reader String) : Reader String := do
  if test (← get) then p else return ""

/-- A sign that may be missing. -/
def sign? (s : String) : Reader String := ifAhead (isSign s) (sign s)

/-- A word that may be missing. -/
def optionalWord (w : String) : Reader String := ifAhead (isWord w) (word w)

/-- A lifetime that may be missing. -/
def lifetime? : Reader String := ifAhead isLifetime lifetime

/-- The first form whose test the row passes. -/
def choose {α : Type} : List ((Row → Bool) × Reader α) → Reader α
  | [] => refuse
  | (test, p) :: forms => do
    if test (← get) then p else choose forms

/-- At most so many forms, as long as rows pass a test. -/
def repeatAtMost (test : Row → Bool) (p : Reader String) : Nat → Reader String
  | 0 => return ""
  | n + 1 => do
    if test (← get) then
      let s ← p
      return s ++ (← repeatAtMost test p n)
    else return ""

/-- All forms as long as rows pass a test. -/
def repeatWhile (test : Row → Bool) (p : Reader String) : Reader String := do
  repeatAtMost test p (← get).length

/-- At most so many forms with a sign between them, up to a row that passes a test, and whether the
sign stands behind the last. -/
def separatedAtMost {α : Type} (stop : Row → Bool) (s : String) (p : Reader α) :
    Nat → Reader (List α × Bool)
  | 0 => return ([], false)
  | n + 1 => do
    if stop (← get) then return ([], false)
    let a ← p
    if !isSign s (← get) then return ([a], false)
    let _ ← sign s
    let (r, trailing) ← separatedAtMost stop s p n
    return (a :: r, trailing || r.isEmpty)

/-- Forms with a sign between them, up to a row that passes a test, and whether the sign stands
behind the last. -/
def separated {α : Type} (stop : Row → Bool) (s : String) (p : Reader α) :
    Reader (List α × Bool) := do
  separatedAtMost stop s p ((← get).length + 1)

/-- The text of forms with a sign between them. -/
def separatedText (stop : Row → Bool) (s : String) (p : Reader String) : Reader String := do
  let (items, trailing) ← separated stop s p
  return s.intercalate items ++ if trailing then s else ""

/-- A list with commas that fills its brackets. -/
def listed (p : Reader String) : Reader String := separatedText List.isEmpty "," p

/-- What a reader makes of a row, or the row as it is written where it makes nothing of it. -/
def orAsWritten (p : Reader (Option String)) : Reader String := do
  let before ← get
  match ← p with
  | some s => return s
  | none => return textBetween before (← get)

/-- What a reader has read, as it is written. -/
def asWritten {α : Type} (p : Reader α) : Reader String := orAsWritten do
  let _ ← p
  return none

end FilterQuery.Code
