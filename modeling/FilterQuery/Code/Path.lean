/-
# FilterQuery.Code.Path -- paths and their arguments

A path is a row of names with `::` between them. Among types each name can have arguments in angle
brackets, and the last one in round brackets with a result behind them. Among values arguments
need a `::` in front, because an angle sign there is a comparison.

Round brackets take the place of an empty list in angle brackets.
-/

import FilterQuery.Code.Grammar

namespace FilterQuery.Code

/-- A path taken apart at its last name, `plain` if it consists of names alone. -/
structure Path where
  lead : String
  name : String
  arguments : TypeArguments := .absent
  plain : Bool := true

namespace Path

/-- The type that a path is. -/
def type (p : Path) : TypeExpr := .path p.lead p.name p.arguments

/-- The text of a path. -/
def text (p : Path) : String := p.type.text

/-- A path with one more name. -/
def extend (p : Path) (name : String) (arguments : TypeArguments) : Path :=
  ⟨p.text ++ "::", name, arguments, p.plain && arguments.isAbsent⟩

end Path

/-- Whether round brackets with arguments follow a name. -/
def isRoundArguments (r : Row) : Bool :=
  isGroup .round r || (isSign "::" r && isGroup .round (r.drop 2))

/-- Whether a type is a single name, with or without arguments in angle brackets. -/
def isSingleName : TypeExpr → Bool
  | .path "" _ arguments => match arguments with
    | .other _ => false
    | _ => true
  | _ => false

namespace Grammar

/-! ## Arguments -/

/-- An argument in angle brackets. A name can be bound to a type or a constant there, or have
bounds. -/
def argument (g : Grammar) : Reader TypeArgument := do
  let row ← get
  if isLifetime row && !isSign "+" row.tail then return .lifetime (← lifetime)
  if isLiteral row || isGroup .curly row then return .other (← g.constant)
  let t ← g.type true
  let row ← get
  if isSingleName t && isSign "=" row then
    let bound := choose [
      (fun r => isLiteral r || isGroup .curly r, g.constant), (fun _ => true, g.typeText)]
    return .other (t.text ++ (← inOrder [sign "=", bound]))
  if isSingleName t && isSign ":" row then
    let bounds := separatedText (isSignOf [",", ">"]) "+" g.bound
    return .other (t.text ++ (← inOrder [sign ":", bounds]))
  return .type t

/-- Arguments in angle brackets. -/
def angleArguments (g : Grammar) : Reader TypeArguments := do
  let opening ← inOrder [sign? "::", sign "<"]
  let (items, trailing) ← separated (isSign ">") "," g.argument
  let _ ← sign ">"
  return .angle opening items trailing

/-- Arguments in round brackets and their result, and whether the path may go on behind them: not
behind a result, unless it is in brackets itself. -/
def roundArguments (g : Grammar) : Reader (String × Bool) := do
  let _ ← sign? "::"
  let inputs ← group .round (listed g.typeText)
  if isSign "->" (← get) then
    let arrow ← sign "->"
    let t ← g.type false
    return (inputs ++ arrow ++ t.text, match t with
      | .bracketed _ => true
      | _ => false)
  else return (inputs, true)

/-! ## Paths -/

/-- A name of a path with its arguments; among values if so said. -/
def segment (g : Grammar) (valued : Bool) : Reader (String × TypeArguments) := do
  -- Places other than `Self` take no arguments.
  if isWordOf ["super", "self", "crate", "try"] (← get) then return (← anyWord, .absent)
  let n ← wordThat fun w => w == "Self" || !keywords.contains w
  let row ← get
  let opens := isSign "<" row && !isSignOf ["<=", "<<="] row
  if (!valued && opens) || (isSign "::" row && isSign "<" (row.drop 2)) then
    return (n, ← g.angleArguments)
  else return (n, .absent)

/-- A path that goes on with at most so many names. -/
def pathRest (g : Grammar) (valued : Bool) : Nat → Path → Reader Path
  | 0, p => return p
  | n + 1, p => do
    let row ← get
    if isSign "::" row && !isGroup .round (row.drop 2) then
      let _ ← sign "::"
      let (name, arguments) ← g.segment valued
      g.pathRest valued n (p.extend name arguments)
    else return p

/-- What comes before the first name of a path: nothing, `::`, or a type in angle brackets, as part
of a trait or by itself. -/
def pathLead (g : Grammar) (traitPath : Reader Path) : Reader String := do
  if isSign "<" (← get) then
    let trait := inOrder [word "as", do return (← traitPath).text]
    inOrder [sign "<", g.typeText, ifAhead (isWord "as") trait, sign ">", sign "::"]
  else sign? "::"

/-- A path whose lead is read in a given way. -/
def pathBehind (g : Grammar) (valued : Bool) (lead : Reader String) : Reader Path := do
  let l ← lead
  let (name, arguments) ← g.segment valued
  let qualified := l.startsWith "<"
  g.pathRest valued (← get).length ⟨l, name, arguments, arguments.isAbsent && !qualified⟩

/-- A path that starts with a name or `::`, as traits are written. -/
def simplePath (g : Grammar) (valued : Bool) : Reader Path := g.pathBehind valued (sign? "::")

/-- A path. -/
def path (g : Grammar) (valued : Bool) : Reader Path :=
  g.pathBehind valued (g.pathLead (g.simplePath false))

/-- A path of a type that goes on with arguments in round brackets, and behind them with at most so
many more. -/
def roundRest (g : Grammar) : Nat → Path → Reader Path
  | 0, p => return p
  | n + 1, p => do
    if p.arguments.isEmpty && isRoundArguments (← get) then
      let (arguments, more) ← g.roundArguments
      let q : Path := { p with arguments := .other arguments, plain := false }
      if more then g.roundRest n (← g.pathRest false (← get).length q) else return q
    else return p

/-- A path among types. -/
def typePath (g : Grammar) : Reader Path := do g.roundRest (← get).length (← g.path false)

/-- A path that names a trait. -/
def traitPath (g : Grammar) : Reader Path := do
  let p ← g.simplePath false
  if p.arguments.isEmpty && isRoundArguments (← get) then
    let (arguments, _) ← g.roundArguments
    return { p with arguments := .other arguments, plain := false }
  else return p

end Grammar

end FilterQuery.Code
