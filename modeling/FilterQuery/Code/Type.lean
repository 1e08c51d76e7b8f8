/-
# FilterQuery.Code.Type -- types

The forms of types, told apart by how they start. Paths and references keep their parts, because
the shape of a field is read off them; a type in round brackets is kept apart, because a path can
go on behind it; all other types are texts.
-/

import FilterQuery.Code.Bound

namespace FilterQuery.Code

/-- Whether a row starts a path. -/
def isPath (r : Row) : Bool := isPathWord r || isSignOf ["::", "<"] r

/-- Whether a row starts with a form that is built in and has no name of its own. -/
def isBuiltin (r : Row) : Bool := isWord "builtin" r && isSign "#" r.tail

/-- A form that is built in. -/
def builtin : Reader String := inOrder [word "builtin", sign "#", anyWord, anyGroup]

/-- The calling convention of a function, if it has one. -/
def convention : Reader String :=
  ifAhead (isWord "extern") (inOrder [word "extern", ifAhead isString literal])

namespace Grammar

/-! ## Functions -/

/-- A receiver of changing value; it has no text of its own. -/
def changingSelf (g : Grammar) : Reader String :=
  inOrder [word "mut", word "self", ifAhead isColon (inOrder [sign ":", g.typeText])]

/-- A parameter of a function type. -/
def inputType (g : Grammar) : Reader String :=
  inOrder [g.attributes, choose [
    (isSign "...", sign "..."),
    (fun r => isWord "mut" r && isWord "self" r.tail, asWritten g.changingSelf),
    (fun r => (isNameOrBlank r || isWord "self" r) && isColon r.tail,
      inOrder [anyWord, sign ":", choose [
        (isSign "...", sign "..."), (fun _ => true, g.typeText)]]),
    (fun _ => true, g.typeText)]]

/-- A function type. -/
def functionType (g : Grammar) : Reader String :=
  inOrder [optionalWord "unsafe", convention, word "fn", group .round (listed g.inputType),
    ifAhead (isSign "->") (inOrder [sign "->", g.singleText])]

/-! ## Brackets -/

/-- The type that round brackets enclose, brackets included. -/
def roundInside (g : Grammar) : Reader TypeExpr := do
  let row ← get
  if row.isEmpty then return .other "()"
  if isSign "?" row then return .other (Delimiter.round.enclose (← g.bound))
  let t ← g.type true
  if isSign "," (← get) then
    let others ← inOrder [sign ",", listed g.typeText]
    return .other (Delimiter.round.enclose (t.text ++ others))
  else return .bracketed t

/-- A type in round brackets, or a sum of bounds that starts with brackets. -/
def roundType (g : Grammar) (plus : Bool) : Reader TypeExpr := do
  let (t?, written) ← within .round g.roundInside
  let t := t?.getD (.other (Delimiter.round.enclose written))
  if plus && isSign "+" (← get) then return .other (t.text ++ (← g.boundsRest)) else return t

/-- An array or a slice. -/
def squareType (g : Grammar) : Reader String :=
  group .square (inOrder [g.typeText, ifAhead (isSign ";") (inOrder [sign ";", g.value true])])

/-! ## Paths and sums -/

/-- A type that starts with a path, behind parameters that it introduces. -/
def pathType (g : Grammar) (plus : Bool) (introduced : String) : Reader TypeExpr := do
  let p ← g.typePath
  let row ← get
  if isBang row && p.plain then return .other (p.text ++ (← inOrder [sign "!", anyGroup]))
  if plus && isSign "+" row then return .other (introduced ++ p.text ++ (← g.boundsRest))
  if introduced ≠ "" then return .other (introduced ++ p.text)
  return p.type

/-- A type that is known by its traits. One with a star has no text of its own. -/
def dynamicType (g : Grammar) (plus : Bool) : Reader (Option String) := do
  let announced ← word "dyn"
  let starred := isSign "*" (← get)
  let bounds ← inOrder [sign? "*", g.bounds plus]
  return if starred then none else some (announced ++ bounds)

/-! ## Types -/

/-- A type. -/
def anyType (g : Grammar) (plus : Bool) : Reader TypeExpr := do
  let introduced ← g.binder?
  let plain (p : Reader String) : Reader TypeExpr := do return .other (← p)
  choose [
    (isGroup .round, g.roundType plus),
    (isWordOf ["fn", "unsafe", "extern"], plain (inOrder [return introduced, g.functionType])),
    (isBuiltin, plain (asWritten builtin)),
    (isPath, g.pathType plus introduced),
    (isWord "dyn", plain (orAsWritten (g.dynamicType plus))),
    (isGroup .square, plain g.squareType),
    (isSign "*", plain (inOrder [sign "*", anyWord, g.singleText])),
    (isSign "&", do
      let mark ← inOrder [sign "&", lifetime?, optionalWord "mut"]
      return .reference mark (← g.type false)),
    (isSign "!", plain (sign "!")),
    (isWord "impl", plain (inOrder [word "impl", g.bounds plus])),
    (isWord "_", plain (word "_")),
    (isLifetime, plain (g.bounds true))]

end Grammar

end FilterQuery.Code
