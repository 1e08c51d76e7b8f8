/-
# FilterQuery.Code.Member -- the members of traits, implementations and foreign modules

Functions, constants, types and macros, each with what its surroundings allow. Where a member says
what most of its surroundings do not allow, it has no text of its own: it is shown as it is
written, attributes included. So the readers give nothing for such a member, although they read it
to its end.
-/

import FilterQuery.Code.Record
import FilterQuery.Code.Signature

namespace FilterQuery.Code

/-- Whether a row starts a type by its name. -/
def isTypeDeclaration (r : Row) : Bool := isWord "type" r

/-- Texts put together, if there are some. -/
def joined? (ss : List (Option String)) : Option String := (ss.mapM id).map String.join

namespace Grammar

/-! ## Parts -/

/-- A text where a row starts with a sign, and nothing of another row. -/
def ifSign? (s : String) (p : Reader String) : Reader (Option String) := do
  if isSign s (← get) then return some (← inOrder [sign s, p]) else return none

/-- Bounds behind a colon, with the colon, if there are bounds. -/
def colonBounds (g : Grammar) (stop : Row → Bool) : Reader String := do
  let b ← boundsUpTo stop g.bound
  return if b = "" then "" else ":" ++ b

/-- A macro with what it declares. -/
def macroItem : Reader String :=
  inOrder [plainPath, sign "!", ifAhead isAnyWord anyWord, anyGroup, sign? ";"]

/-- The parts of a constant: the text up to the type, that of the value behind it, and whether the
constant is `general`, with parameters or conditions. -/
structure Constant where
  head : String
  value? : Option String
  general : Bool

/-- A constant. -/
def constantParts (g : Grammar) : Reader Constant := do
  let announced ← inOrder [word "const", choose [(isWord "_", anyWord), (fun _ => true, name)]]
  let parametric := isSign "<" (← get)
  let _ ← g.parameters
  let type ← inOrder [sign ":", g.typeText]
  let value? ← ifSign? "=" (g.value true)
  let conditional := isWord "where" (← get)
  let _ ← inOrder [g.conditions, sign ";"]
  return ⟨announced ++ type, value?, parametric || conditional⟩

namespace Constant

/-- The text of a constant, if it is not general. -/
def text? (c : Constant) : Option String :=
  if c.general then none else some (c.head ++ c.value?.getD "" ++ ";")

/-- The text of a constant with a value, if it is not general. -/
def valuedText? (c : Constant) : Option String := c.value?.bind fun _ => c.text?

end Constant

/-- The parts of a declaration of a type by its name, as texts. `head` goes up to the parameters,
and behind a colon (`bounded`) there may be bounds; conditions stand before the definition or behind
it. -/
structure TypeDeclaration where
  head : String
  bounded : Bool
  bounds : String
  before : String
  definition? : Option String
  behind : String

/-- A declaration of a type by its name. -/
def typeParts (g : Grammar) : Reader TypeDeclaration := do
  let head ← inOrder [word "type", name, g.parametersText]
  let bounded := isSign ":" (← get)
  let stop (r : Row) := isWord "where" r || isSignOf ["=", ";"] r
  let bounds ← g.colonBounds stop
  let before ← g.conditions
  let definition? ← ifSign? "=" g.typeText
  let behind ← g.conditions
  let _ ← sign ";"
  return ⟨head, bounded, bounds, before, definition?, behind⟩

namespace TypeDeclaration

/-- The text of a declaration, if it has a definition and no bounds. -/
def definedText? (d : TypeDeclaration) : Option String :=
  if d.bounded then none
  else d.definition?.map fun t => d.head ++ d.before ++ t ++ d.behind ++ ";"

/-- The text of a declaration that may have bounds and a definition. -/
def text (d : TypeDeclaration) : String :=
  d.head ++ d.bounds ++ d.definition?.getD "" ++ d.before ++ d.behind ++ ";"

/-- The text of a declaration, if it has neither bounds nor a definition. -/
def bareText? (d : TypeDeclaration) : Option String :=
  if d.bounded || d.definition?.isSome then none
  else some (d.head ++ d.before ++ d.behind ++ ";")

end TypeDeclaration

/-! ## Members -/

/-- A function that may lack a body. -/
def methodHead (g : Grammar) : Reader (String × Option String) := do
  let head ← g.signature false
  if isSign ";" (← get) then
    let _ ← sign ";"
    return (head, none)
  else return (head, some (← g.block))

/-- A member behind its attributes and what is said of its visibility. -/
def traitMemberBody (g : Grammar) : Reader (Option String) :=
  choose [
    (isFunction false, do
      let (head, body?) ← g.methodHead
      return some (head ++ body?.getD ";")),
    (isWord "const", do return (← g.constantParts).text?),
    (isTypeDeclaration, do return some (← g.typeParts).text),
    (fun _ => true, do return some (← macroItem))]

/-- A member of a trait. It has no text of its own if it says to whom it is visible or that it can
be replaced. -/
def traitMember (g : Grammar) : Reader String := orAsWritten do
  let attributes ← g.attributes
  let announced ← inOrder [visibility, optionalWord "default"]
  let body? ← g.traitMemberBody
  return if announced = "" then joined? [some attributes, body?] else none

/-- A member behind its attributes and what is said of its visibility. -/
def implementedMemberBody (g : Grammar) : Reader (Option String) :=
  choose [
    (isFunction false, do
      let (head, body?) ← g.methodHead
      return joined? [some head, body?]),
    (isWord "const", do return (← g.constantParts).valuedText?),
    (isTypeDeclaration, do return (← g.typeParts).definedText?),
    (fun _ => true, do return some (← macroItem))]

/-- A member of an implementation. -/
def implementedMember (g : Grammar) : Reader String := orAsWritten do
  let isDefault (r : Row) := isWord "default" r && !isSign "!" r.tail
  let announced ← inOrder [g.attributes, visibility, ifAhead isDefault (word "default")]
  return joined? [some announced, ← g.implementedMemberBody]

/-- A variable of a foreign module. It has no text of its own if it is said to be safe or unsafe,
or if it has a value. -/
def foreignVariable (g : Grammar) : Reader (Option String) := do
  let announced ← inOrder [optionalWord "unsafe", optionalWord "safe"]
  let head ← inOrder [word "static", optionalWord "mut", name, sign ":", g.typeText]
  let value? ← ifSign? "=" (g.value true)
  let stop ← sign ";"
  return if announced = "" && value?.isNone then some (head ++ stop) else none

/-- A function of a foreign module. It has no text of its own if it is said to be safe or has a
body. -/
def foreignFunction (g : Grammar) : Reader (Option String) := do
  let safe := isWord "safe" (behindWord "async" (behindWord "const" (← get)))
  let head ← g.signature true
  if isGroup .curly (← get) then
    let _ ← anyGroup
    return none
  let stop ← sign ";"
  return if safe then none else some (head ++ stop)

/-- A member of a foreign module. -/
def foreignMember (g : Grammar) : Reader String := orAsWritten do
  let announced ← inOrder [g.attributes, visibility]
  let isVariable (r : Row) :=
    isWord "static" r || (isWordOf ["unsafe", "safe"] r && isWord "static" r.tail)
  let body? ← choose [
    (isFunction true, g.foreignFunction),
    (isVariable, g.foreignVariable),
    (isTypeDeclaration, do return (← g.typeParts).bareText?),
    (fun _ => true, do return some (← macroItem))]
  return joined? [some announced, body?]

end Grammar

end FilterQuery.Code
