/-
# FilterQuery.Code.Pattern -- patterns

What values are taken apart with. Fields that are known by their place are shown by their decimal
place, ranges that include their end are shown with `..=`, and a pattern that opens a box is shown
as it is written.
-/

import FilterQuery.Code.Index
import FilterQuery.Code.Type

namespace FilterQuery.Code

/-! ## How patterns start and end -/

/-- Whether a row starts with a path in a pattern: a name alone is a variable. -/
def isPathPattern (r : Row) : Bool :=
  (isName r && (isSignOf ["::", "!", ".."] r.tail || isGroup .curly r.tail ||
    isGroup .round r.tail)) ||
  (isWord "self" r && isSign "::" r.tail) || isSignOf ["::", "<"] r ||
  isWordOf ["Self", "super", "crate"] r

/-- Whether a row starts with what can follow a range without an end. -/
def isRangeEnd (r : Row) : Bool :=
  r.isEmpty || isSignOf ["|", "=", ",", ";"] r || isColon r || isWord "if" r

/-- Whether a row starts with a bar between patterns. -/
def isBar (r : Row) : Bool := isSign "|" r && !isSignOf ["||", "|="] r

/-! ## Parts -/

/-- The sign of a range. -/
def rangeSign : Reader String :=
  choose [
    (isSign "..=", sign "..="),
    (isSign "...", do
      let _ ← sign "..."
      return "..="),
    (fun _ => true, sign "..")]

/-- A field of a record, by its name or its place. -/
def member : Reader String := choose [(isNumber, index), (fun _ => true, name)]

namespace Grammar

/-- A macro and its arguments behind its path. -/
def macroArguments : Reader String := inOrder [sign "!", anyGroup]

/-- A block of constants. -/
def constantBlock (g : Grammar) : Reader String := inOrder [word "const", g.block]

/-- An end of a range, if it has one. -/
def rangeBound (g : Grammar) : Reader String :=
  choose [
    (isRangeEnd, return ""),
    (isLiteral, literal),
    (isWord "const", g.constantBlock),
    (fun _ => true, do return (← g.path true).text)]

/-- What follows the start of a range. -/
def rangeRest (g : Grammar) : Reader String :=
  ifAhead (isSign "..") (inOrder [rangeSign, g.rangeBound])

/-- Alternatives of patterns with bars between them. -/
def alternatives (g : Grammar) : Reader String :=
  inOrder [sign? "|", g.pattern, repeatWhile isBar (inOrder [sign "|", g.pattern])]

/-- A field in a pattern of a record, or the sign that there are more. -/
def fieldPattern (g : Grammar) : Reader String :=
  inOrder [g.attributes, choose [
    (isSign "..", sign ".."),
    (isWord "box", asWritten (inOrder [word "box", optionalWord "ref", optionalWord "mut", name])),
    (isWordOf ["ref", "mut"], inOrder [optionalWord "ref", optionalWord "mut", name]),
    (fun _ => true, inOrder [member, ifAhead isColon (inOrder [sign ":", g.alternatives])])]]

/-! ## Patterns -/

/-- A pattern that starts with a path. -/
def pathPattern (g : Grammar) : Reader String := do
  let p ← g.path true
  inOrder [return p.text, choose [
    (fun r => isBang r && p.plain, macroArguments),
    (isGroup .curly, group .curly (listed g.fieldPattern)),
    (isGroup .round, group .round (listed g.alternatives)),
    (fun _ => true, g.rangeRest)]]

/-- A variable, and what it stands for. -/
def variablePattern (g : Grammar) : Reader String :=
  inOrder [optionalWord "ref", optionalWord "mut",
    choose [(isWord "self", word "self"), (fun _ => true, name)],
    ifAhead (isSign "@") (inOrder [sign "@", g.pattern])]

/-- A pattern without alternatives. -/
def singlePattern (g : Grammar) : Reader String :=
  choose [
    (isPathPattern, g.pathPattern),
    (isWord "_", word "_"),
    (isWord "box", asWritten (inOrder [word "box", g.pattern])),
    (fun r => isLiteral r || isWord "const" r, inOrder [g.rangeBound, g.rangeRest]),
    (fun r => isWordOf ["ref", "mut", "self"] r || isName r, g.variablePattern),
    (isSign "&", inOrder [sign "&", optionalWord "mut", g.pattern]),
    (isGroup .round, group .round (listed g.alternatives)),
    (isGroup .square, group .square (listed g.alternatives)),
    (isSign "..", g.rangeRest)]

end Grammar

end FilterQuery.Code
