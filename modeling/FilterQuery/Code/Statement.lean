/-
# FilterQuery.Code.Statement -- statements

A statement declares variables, is an item, calls a macro with braces, or is a value. Which of them
it is can be told from what stands behind its attributes.
-/

import FilterQuery.Code.Value

namespace FilterQuery.Code

/-! ## How statements start -/

/-- Whether a row starts a function, perhaps one that is said to be safe. -/
def isFunction (safe : Bool) (r : Row) : Bool :=
  let r := behindWord "async" (behindWord "const" r)
  let r := if safe && isWord "safe" r then r.tail else behindWord "unsafe" r
  let r := if isWord "extern" r then (if isString r.tail then r.drop 2 else r.tail) else r
  isWord "fn" r

/-- What stands behind a path of names, if such a path starts a row. -/
def behindPlainPath? (r : Row) : Option Row := (Grammar.plainPath.run r).map (·.2)

/-- Whether a row starts a macro that gives a name to what it declares. -/
def isNamingMacro (r : Row) : Bool :=
  (behindPlainPath? r).any fun s => isSign "!" s && (isName s.tail || isWord "try" s.tail)

/-- Whether a row starts a macro with braces that is a statement by itself. -/
def isBlockMacro (r : Row) : Bool :=
  (behindPlainPath? r).any fun s =>
    isSign "!" s && isGroup .curly s.tail && !isDot (s.drop 2) && !isSign "?" (s.drop 2)

/-- Whether a row without attributes starts with a word that only items start with. -/
def isItemWord (r : Row) : Bool :=
  isWordOf ["pub", "extern", "use", "fn", "mod", "type", "struct", "enum", "trait", "impl", "macro"]
    r

/-- Whether a constant stands behind the word for it, and no block or closure. -/
def isConstant (r : Row) : Bool :=
  isWord "const" r &&
    !(isGroup .curly r.tail || isWordOf ["static", "move"] r.tail || isSign "|" r.tail ||
      (isWord "async" r.tail && !isWordOf ["unsafe", "extern", "fn"] (r.drop 2)))

/-- Whether a row without attributes starts an item. -/
def isItem (r : Row) : Bool :=
  isItemWord r || isConstant r || isNamingMacro r ||
  (isWord "crate" r && !isSign "::" r.tail) ||
  (isWord "static" r && (isWord "mut" r.tail || isName r.tail)) ||
  (isWord "unsafe" r && !isGroup .curly r.tail) ||
  (isWord "async" r && isWordOf ["unsafe", "extern", "fn"] r.tail) ||
  (isWord "union" r && isName r.tail) ||
  (isWord "auto" r && isWord "trait" r.tail) ||
  (isWord "default" r && isWordOf ["unsafe", "impl"] r.tail)

namespace Grammar

/-! ## Statements -/

/-- A declaration of variables. -/
def declaration (g : Grammar) : Reader String :=
  inOrder [word "let", g.pattern, ifAhead (isSign ":") (inOrder [sign ":", g.typeText]),
    ifAhead (isSign "=") (inOrder [sign "=", g.value true,
      ifAhead (isWord "else") (inOrder [word "else", g.block])]),
    sign ";"]

/-- A statement. -/
def anyStatement (g : Grammar) : Reader String := do
  let behind := behindAttributes (← get)
  if isBlockMacro behind then inOrder [g.attributes, plainPath, macroArguments]
  else if isWord "let" behind then inOrder [g.attributes, g.declaration]
  else if isItem behind then g.item
  else g.early

end Grammar

end FilterQuery.Code
