/-
# FilterQuery.Code.Value -- values

A value is a row of operands with operators between them. Which operator binds closer makes no
difference to the text, so no tree is built of them.

An angle sign behind an operand is a comparison; where an operand is to come it starts a path. A
brace behind a path starts a record with fields, except where a block is to come: there the value
ends before the brace. Where a statement can stand, a value that ends in a block of its own ends
there, unless a point or a question mark takes it on.

Fields that are known by their place are shown by their decimal place.
-/

import FilterQuery.Code.Pattern

namespace FilterQuery.Code

/-! ## How values start and end -/

/-- Whether a row starts a value. -/
def isValue (r : Row) : Bool :=
  (isAnyWord r && !isWord "as" r) || isGroup .round r || isGroup .square r || isGroup .curly r ||
  isLiteral r || isBang r || (isSign "-" r && !isSignOf ["-=", "->"] r) ||
  (isSign "*" r && !isSign "*=" r) || (isSign "|" r && !isSign "|=" r) ||
  (isSign "&" r && !isSign "&=" r) || (isSign "<" r && !isSignOf ["<=", "<<="] r) ||
  isSignOf ["..", "::", "#"] r || isLifetime r

/-- Whether a row starts with parameters that a closure introduces. -/
def isClosureBinder (r : Row) : Bool :=
  isWord "for" r && isSign "<" r.tail && (isLifetime (r.drop 2) || isSign ">" (r.drop 2))

/-- Whether a row starts a closure. -/
def isClosure (r : Row) : Bool :=
  isSign "|" r || isWordOf ["move", "static"] r || isClosureBinder r ||
  (isWord "const" r && !isGroup .curly r.tail) ||
  (isWord "async" r && (isSign "|" r.tail || isWord "move" r.tail))

/-- Whether a row starts a block that runs by itself. -/
def isAsyncBlock (r : Row) : Bool :=
  isWord "async" r && (isGroup .curly r.tail || (isWord "move" r.tail && isGroup .curly (r.drop 2)))

/-- Whether a row starts with a word and a block behind it. -/
def isWordBlock (w : String) (r : Row) : Bool := isWord w r && isGroup .curly r.tail

/-- Whether a row starts with a form that ends in a block of its own. -/
def isBlockForm (r : Row) : Bool :=
  isWordOf ["if", "while", "loop", "match", "unsafe"] r || isWordBlock "try" r ||
  (isWord "for" r && !isClosureBinder r) || isWordBlock "const" r || isGroup .curly r ||
  isLifetime r

/-- Whether a row starts with what can follow a range without an end. -/
def isOpenRangeEnd (record : Bool) (r : Row) : Bool :=
  r.isEmpty || isDot r || (!record && isGroup .curly r) || isWord "as" r ||
  isSignOf [",", ";", "?", "=>", "=", "+", "/", "%", "^", ">", "<=", "!=", "-=", "*=", "&=", "|=",
    "<<="] r

/-- Whether a row starts with what takes an operand on. -/
def isTrailer (r : Row) : Bool :=
  isGroup .round r || isGroup .square r || isDot r || isSign "?" r

/-- The operators between two operands. Those that start with another one come before it. -/
def operators : List String :=
  ["<<=", ">>=", "+=", "-=", "*=", "/=", "%=", "^=", "&=", "|=", "&&", "||", "<<", ">>", "==", "<=",
    "!=", ">=", "+", "-", "*", "/", "%", "^", "&", "|", "<", ">"]

/-- The operator that a row starts with. -/
def operator? (r : Row) : Option String :=
  (operators.find? fun s => isSign s r).or
    (if isSign "=" r && !isSign "=>" r then some "=" else none)

namespace Grammar

/-! ## Closures -/

/-- A parameter of a closure. A pattern that is shown as it is written loses its attributes, unless
it has a type. -/
def closureInput (g : Grammar) : Reader String := do
  let attributes ← g.attributes
  let boxed := isWord "box" (← get)
  let pattern ← g.pattern
  if isSign ":" (← get) then
    return attributes ++ pattern ++ (← inOrder [sign ":", g.typeText])
  else return (if boxed then "" else attributes) ++ pattern

/-- A closure. -/
def closure (g : Grammar) (record : Bool) : Reader String :=
  inOrder [g.binder?, optionalWord "const", optionalWord "static", optionalWord "async",
    optionalWord "move", sign "|", separatedText (isSign "|") "," g.closureInput, sign "|",
    choose [
      (isSign "->", inOrder [g.result, g.block]),
      (fun _ => true, g.value record)]]

/-! ## Forms with blocks -/

/-- A block behind a word. -/
def wordBlock (g : Grammar) (w : String) : Reader String := inOrder [word w, g.block]

/-- A condition and the block that it guards. -/
def guarded (g : Grammar) (w : String) : Reader String := inOrder [word w, g.value false, g.block]

/-- What stands behind the first block of a choice. -/
def otherwise (g : Grammar) : Reader String :=
  repeatWhile (isWord "else")
    (inOrder [word "else", choose [(isWord "if", g.guarded "if"), (fun _ => true, g.block)]])

/-- One of the values that patterns choose between. -/
def arm (g : Grammar) : Reader String :=
  inOrder [g.attributes, g.alternatives, ifAhead (isWord "if") (inOrder [word "if", g.value true]),
    sign "=>", g.early, sign? ","]

/-- A choice by patterns. -/
def matching (g : Grammar) : Reader String :=
  inOrder [word "match", g.value false,
    group .curly (inOrder [g.innerAttributes, repeatWhile (!List.isEmpty ·) g.arm])]

/-- A loop over values. -/
def iteration (g : Grammar) : Reader String :=
  inOrder [word "for", g.alternatives, word "in", g.value false, g.block]

/-- A form that ends in a block of its own, also one with a label. -/
def blockForm (g : Grammar) : Reader String :=
  inOrder [ifAhead isLifetime (inOrder [lifetime, sign ":"]), choose [
    (isWord "if", inOrder [g.guarded "if", g.otherwise]),
    (isWord "while", g.guarded "while"),
    (isWord "for", g.iteration),
    (isWord "loop", g.wordBlock "loop"),
    (isWord "match", g.matching),
    (isWord "unsafe", g.wordBlock "unsafe"),
    (isWord "try", g.wordBlock "try"),
    (isWord "const", g.wordBlock "const"),
    (isGroup .curly, g.block)]]

/-! ## Operands -/

/-- A field of a record, or the record that the other fields are taken from. -/
def fieldValue (g : Grammar) : Reader String :=
  choose [
    (isSign "..", inOrder [sign "..", ifAhead (!List.isEmpty ·) (g.value true)]),
    (fun _ => true,
      inOrder [g.attributes, member, ifAhead (isSign ":") (inOrder [sign ":", g.value true])])]

/-- A path, a macro, or a record with fields if so said. -/
def pathValue (g : Grammar) (record : Bool) : Reader String := do
  let p ← g.path true
  inOrder [return p.text, choose [
    (fun r => isBang r && p.plain, macroArguments),
    (fun r => record && isGroup .curly r, group .curly (listed g.fieldValue)),
    (fun _ => true, return "")]]

/-- What stands in square brackets: values, or one and their number. -/
def squareInside (g : Grammar) : Reader String :=
  ifAhead (!List.isEmpty ·) (inOrder [g.value true, choose [
    (isSign ";", inOrder [sign ";", g.value true]),
    (isSign ",", inOrder [sign ",", listed (g.value true)]),
    (fun _ => true, return "")]])

/-- A value that may be missing, as what a word gives on. -/
def givenOn (g : Grammar) (w : String) : Reader String :=
  inOrder [word w, ifAhead isValue (g.value true)]

/-- An operand by itself: nothing stands before or behind it that belongs to it. -/
def atom (g : Grammar) (record : Bool) : Reader String :=
  choose [
    (isLiteral, literal),
    (isAsyncBlock, inOrder [word "async", optionalWord "move", g.block]),
    (isWordBlock "try", g.wordBlock "try"),
    (isClosure, g.closure record),
    (isBuiltin, builtin),
    (fun r => isPath r || (isWord "try" r && isSignOf ["!", "::"] r.tail), g.pathValue record),
    (isGroup .round, group .round (listed (g.value true))),
    (isWord "break", inOrder [word "break", lifetime?,
      ifAhead (fun r => isValue r && (record || !isGroup .curly r)) (g.value true)]),
    (isWord "continue", inOrder [word "continue", lifetime?]),
    (isWord "return", g.givenOn "return"),
    (isWord "yield", g.givenOn "yield"),
    (isWord "become", asWritten (inOrder [word "become", g.value true])),
    (isGroup .square, group .square g.squareInside),
    (isWord "let", inOrder [word "let", g.alternatives, sign "=", do
      return (← g.operand record).text]),
    (isBlockForm, g.blockForm),
    (isSign "..", inOrder [rangeSign,
      ifAhead (!isOpenRangeEnd record ·) (g.value record)]),
    (isWord "_", word "_")]

/-- A field or a method behind a point. -/
def memberTrailer (g : Grammar) : Reader String := do
  let name := inOrder [anyWord, ifAhead (isSign "::") do
    return TypeExpr.argumentsText (← g.angleArguments)]
  let point ← sign "."
  if isNumber (← get) then
    let places ← indices
    -- A point behind the last place takes the operand on.
    if places.endsWith "." then return point ++ places ++ (← choose [
      (isNumber, index), (fun _ => true, name)])
    else return point ++ places
  else return point ++ (← name)

/-- What takes an operand on. -/
def trailer (g : Grammar) : Reader String :=
  choose [
    (isGroup .round, group .round (listed (g.value true))),
    (isGroup .square, group .square (g.value true)),
    (isSign "?", sign "?"),
    (isDot, g.memberTrailer)]

/-- Everything that takes an operand on. -/
def trailers (g : Grammar) : Reader String := repeatWhile isTrailer g.trailer

/-- The mark of a reference to an operand. -/
def referenceMark : Reader String :=
  let isRaw (r : Row) := isWord "raw" r && isWordOf ["mut", "const"] r.tail
  inOrder [sign "&", ifAhead isRaw (inOrder [word "raw", optionalWord "const"]), optionalWord "mut"]

/-- An operand. One that is shown as it is written keeps its attributes that way too. -/
def anyOperand (g : Grammar) (record : Bool) : Reader Operand := do
  let before ← get
  let attributes ← g.attributes
  let row ← get
  if isSign "&" row then
    return ⟨attributes ++ (← referenceMark) ++ (← g.operand record).text, false⟩
  if isSignOf ["*", "!", "-"] row then
    let mark ← choose (["*", "!", "-"].map fun s => (isSign s, sign s))
    return ⟨attributes ++ mark ++ (← g.operand record).text, false⟩
  let a ← g.atom record
  let t ← g.trailers
  if (isBuiltin row || isWord "become" row) && t = "" then
    return ⟨textBetween before (← get), true⟩
  else return ⟨attributes ++ a ++ t, false⟩

/-! ## Values -/

/-- At most so many operators and operands behind an operand. -/
def valueRest (g : Grammar) (record : Bool) : Nat → Reader String
  | 0 => return ""
  | n + 1 => do
    let row ← get
    let operand : Reader String := do return (← g.operand record).text
    match operator? row with
    | some s => inOrder [sign s, operand, g.valueRest record n]
    | none =>
      if isSign ".." row then
        inOrder [rangeSign, ifAhead (!isOpenRangeEnd record ·) operand, g.valueRest record n]
      else if isWord "as" row then inOrder [word "as", g.singleText, g.valueRest record n]
      else return ""

/-- The operators and operands behind an operand. -/
def valueTail (g : Grammar) (record : Bool) : Reader String := do
  g.valueRest record (← get).length

/-- A value. -/
def anyValue (g : Grammar) (record : Bool) : Reader String := do
  return (← g.anyOperand record).text ++ (← g.valueTail record)

/-- A value where a statement can stand. An operand that is shown as it is written loses its
attributes there. -/
def earlyValue (g : Grammar) : Reader String := do
  let attributes ← g.attributes
  if isBlockForm (← get) then
    let b ← g.blockForm
    if isDot (← get) || isSign "?" (← get) then
      inOrder [return attributes ++ b, g.trailers, g.valueTail true]
    else return attributes ++ b
  else
    let o ← g.anyOperand true
    return (if o.verbatim then "" else attributes) ++ o.text ++ (← g.valueTail true)

end Grammar

end FilterQuery.Code
