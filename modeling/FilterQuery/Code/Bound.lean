/-
# FilterQuery.Code.Bound -- parameters, bounds and conditions

What is declared can take parameters, and conditions can be put on them: bounds right behind a
parameter, or a list of conditions behind everything. A bound that asks for a trait only where
values are constant is shown as it is written.

A colon without bounds behind it is dropped from parameters, and a list without conditions goes
altogether.
-/

import FilterQuery.Code.Path
import FilterQuery.Declaration.Parameters

namespace FilterQuery.Code

/-! ## How bounds and conditions start and end -/

/-- Whether a row starts with what asks for constants. -/
def isConstantTrait (r : Row) : Bool :=
  isGroup .square r || isWord "const" r || (isSign "~" r && isWord "const" r.tail)

/-- Whether a row starts a bound. -/
def isBound (r : Row) : Bool :=
  isAnyWord r || isSignOf ["::", "?", "~"] r || isLifetime r || isGroup .round r ||
    isGroup .square r

/-- Whether a row starts with what can follow a list of conditions. -/
def isConditionEnd (r : Row) : Bool :=
  r.isEmpty || isGroup .curly r || isSignOf [",", ";", "="] r || isColon r

namespace Grammar

/-! ## Parameters -/

/-- Bounds behind a colon; nothing where none stand there. -/
def boundsUpTo (stop : Row → Bool) (p : Reader String) : Reader String :=
  ifAhead (isSign ":") do
    let _ ← sign ":"
    separatedText stop "+" p

/-- What follows a sign of equality, if one stands there. -/
def definition (p : Reader String) : Reader String :=
  ifAhead (isSign "=") do
    let _ ← sign "="
    p

/-- A parameter. -/
def parameter (g : Grammar) : Reader Parameter := do
  let attributes ← g.attributes
  let row ← get
  if isLifetime row then
    let n ← lifetime
    return ⟨.lifetime, n, ← boundsUpTo (isSignOf [",", ">"]) lifetime, attributes, ""⟩
  if isWord "const" row then
    let _ ← word "const"
    let n ← name
    let _ ← sign ":"
    return ⟨.constant, n, ← g.typeText, attributes, ← definition g.constant⟩
  if isWord "_" row then return ⟨.type, ← anyWord, "", attributes, ""⟩
  let n ← name
  let bounds ← boundsUpTo (isSignOf [",", ">", "="]) g.bound
  return ⟨.type, n, bounds, attributes, ← definition g.typeText⟩

/-- Parameters in angle brackets; none without the brackets. -/
def parameters (g : Grammar) : Reader Parameters := do
  if !isSign "<" (← get) then return {}
  let _ ← sign "<"
  let (items, trailing) ← separated (isSign ">") "," g.parameter
  let _ ← sign ">"
  return ⟨items, trailing⟩

/-- The text of parameters behind the name of an item. -/
def parametersText (g : Grammar) : Reader String := do return (← g.parameters).complete

/-- The parameters that a type or a bound introduces for itself. They keep their order. -/
def binder (g : Grammar) : Reader String :=
  inOrder [word "for", sign "<",
    separatedText (isSign ">") "," (do return (← g.parameter).complete), sign ">"]

/-- The parameters that a type or a bound introduces for itself, if there are any. -/
def binder? (g : Grammar) : Reader String := ifAhead (isWord "for") g.binder

/-! ## Bounds -/

/-- A bound by a trait; no text of its own if it asks for constants. -/
def traitBound (g : Grammar) : Reader (Option String) := do
  let outer ← g.binder?
  let row ← get
  let constant := isConstantTrait row
  let _ ← choose [
    (fun _ => !constant, return ""),
    (isGroup .square, anyGroup),
    (fun _ => true, inOrder [sign? "~", word "const"])]
  let modifier ← sign? "?"
  let inner ← g.binder?
  let p ← g.traitPath
  return if constant then none else some (outer ++ modifier ++ inner ++ p.text)

/-- The parameters that a result is said to use, lifetimes first. -/
def captures : Reader String := do
  let opening ← inOrder [word "use", sign "<"]
  let item : Reader ListedItem := do
    if isLifetime (← get) then return ⟨true, ← lifetime⟩ else return ⟨false, ← anyWord⟩
  let (items, trailing) ← separated (isSign ">") "," item
  return opening ++ ListedItem.listText items trailing ++ (← sign ">")

/-- A bound. -/
def oneBound (g : Grammar) : Reader String :=
  choose [
    (isLifetime, lifetime),
    (isWord "use", captures),
    (isGroup .round, group .round (orAsWritten g.traitBound)),
    (fun _ => true, orAsWritten g.traitBound)]

/-- The rest of a sum of bounds behind its first bound. -/
def boundsRest (g : Grammar) : Reader String :=
  ifAhead (isSign "+") (inOrder [sign "+", separatedText (!isBound ·) "+" g.bound])

/-- The bounds of a type: one, or a sum if so said. -/
def bounds (g : Grammar) (plus : Bool) : Reader String :=
  if plus then inOrder [g.bound, g.boundsRest] else g.bound

/-! ## Conditions -/

/-- A condition: bounds of a lifetime or a type. -/
def condition (g : Grammar) : Reader String :=
  choose [
    (fun r => isLifetime r && isSign ":" r.tail,
      inOrder [lifetime, sign ":", separatedText isConditionEnd "+" lifetime]),
    (fun _ => true,
      inOrder [g.binder?, g.typeText, sign ":", separatedText isConditionEnd "+" g.bound])]

/-- A list of conditions, if one stands there. -/
def conditions (g : Grammar) : Reader String :=
  ifAhead (isWord "where") do
    let announced ← word "where"
    let list ← separatedText isConditionEnd "," g.condition
    return if list = "" then "" else announced ++ list

end Grammar

end FilterQuery.Code
