/-
# FilterQuery.Code.Item -- items

What blocks and modules declare. An item that says what cannot be said everywhere has no text of
its own: a function without a body, a variable without a type or a value, a constant that takes
parameters, a type with bounds, an implementation that is visible to someone.
-/

import FilterQuery.Code.Member

namespace FilterQuery.Code

/-- Whether an angle sign behind the word for an implementation starts parameters, and no path. -/
def isImplementationParameters (r : Row) : Bool :=
  let isSeparator (s : Row) := isSignOf [">", ",", "="] s || isColon s
  isSign "<" r &&
    (isSignOf [">", "#"] r.tail || isWord "const" r.tail ||
      ((isLifetime r.tail || isName r.tail) && isSeparator (r.drop 2)))

/-- Whether a type names a trait that can be implemented: a path without a type in front. -/
def isTraitName : TypeExpr → Bool
  | .path lead _ _ => !lead.startsWith "<"
  | _ => false

namespace Grammar

/-! ## Functions, variables, constants, types -/

/-- A function. -/
def function (g : Grammar) : Reader (Option String) := do
  let (head, body?) ← g.methodHead
  return joined? [some head, body?]

/-- A variable that lasts. -/
def staticVariable (g : Grammar) : Reader (Option String) := do
  let head ← inOrder [word "static", optionalWord "mut", name]
  let type? ← ifSign? ":" g.typeText
  let value? ← ifSign? "=" (g.value true)
  return joined? [some head, type?, value?, some (← sign ";")]

/-! ## Traits and implementations -/

/-- What a trait is short for, or its members. -/
def traitRest (g : Grammar) : Reader String :=
  choose [
    (isSign "=", inOrder [sign "=",
      separatedText (fun r => isWord "where" r || isSign ";" r) "+" g.bound, g.conditions,
      sign ";"]),
    (fun _ => true, inOrder [
      g.colonBounds (fun r => isWord "where" r || isGroup .curly r), g.conditions,
      group .curly (inOrder [g.innerAttributes, repeatWhile (!List.isEmpty ·) g.traitMember])])]

/-- A trait. -/
def trait (g : Grammar) : Reader String :=
  inOrder [optionalWord "unsafe", optionalWord "auto", word "trait", name, g.parametersText,
    g.traitRest]

/-- An implementation. It has no text of its own if it is constant, or if what it implements is
not the name of a trait. -/
def implementation (g : Grammar) : Reader (Option String) := do
  let announced ← inOrder [optionalWord "default", optionalWord "unsafe", word "impl",
    ifAhead isImplementationParameters g.parametersText]
  let isConditional (r : Row) := isSign "?" r && isWord "const" r.tail
  let constant ← inOrder [ifAhead isConditional (sign "?"), optionalWord "const"]
  let polarity ← sign? "!"
  let first ← g.type true
  let implements := isWord "for" (← get)
  let rest ← inOrder [ifAhead (isWord "for") (inOrder [word "for", g.typeText]), g.conditions,
    group .curly (inOrder [g.innerAttributes,
      repeatWhile (!List.isEmpty ·) g.implementedMember])]
  if constant ≠ "" || (implements && !isTraitName first) then return none
  return some (announced ++ polarity ++ first.text ++ rest)

/-! ## Modules and macros -/

/-- A module. -/
def module (g : Grammar) : Reader String :=
  inOrder [optionalWord "unsafe", word "mod", anyWord, choose [
    (isSign ";", sign ";"),
    (fun _ => true,
      group .curly (inOrder [g.innerAttributes, repeatWhile (!List.isEmpty ·) g.item]))]]

/-- A foreign module. -/
def foreignModule (g : Grammar) : Reader String :=
  inOrder [optionalWord "unsafe", convention,
    group .curly (inOrder [g.innerAttributes, repeatWhile (!List.isEmpty ·) g.foreignMember])]

/-- A macro by declaration; it has no text of its own. -/
def macroDeclaration : Reader String :=
  inOrder [word "macro", name, ifAhead (isGroup .round) anyGroup, anyGroup]

/-! ## Items -/

/-- An item behind its attributes and what is said of its visibility. -/
def itemBody (g : Grammar) : Reader (Option String) :=
  let shown (p : Reader String) : Reader (Option String) := do return some (← p)
  let isUnsafe (w : String) (r : Row) := isWord w (behindWord "unsafe" r)
  choose [
    (isFunction false, g.function),
    (fun r => isWord "extern" r && isWord "crate" r.tail, shown (through ";")),
    (isUnsafe "extern", shown g.foreignModule),
    (isWord "use", shown (through ";")),
    (isWord "static", g.staticVariable),
    (isWord "const", do return (← g.constantParts).valuedText?),
    (isUnsafe "mod", shown g.module),
    (isTypeDeclaration, do return (← g.typeParts).definedText?),
    (isWord "struct", shown g.record),
    (isWord "enum", shown g.enumeration),
    (fun r => isWord "union" r && isName r.tail, shown g.union),
    (fun r => isUnsafe "trait" r ||
      (isUnsafe "auto" r && isWord "trait" (behindWord "unsafe" r).tail), shown g.trait),
    (fun r => isUnsafe "impl" r || (isWord "default" r && !isSign "!" r.tail), g.implementation),
    (isWord "macro", do
      let _ ← macroDeclaration
      return none),
    (fun _ => true, shown macroItem)]

/-- An item. -/
def anyItem (g : Grammar) : Reader String := orAsWritten do
  let attributes ← g.attributes
  let visible ← visibility
  let hidden := isWord "impl" (behindWord "unsafe" (behindWord "default" (← get))) && visible ≠ ""
  let body? ← g.itemBody
  return if hidden then none else joined? [some (attributes ++ visible), body?]

end Grammar

end FilterQuery.Code
