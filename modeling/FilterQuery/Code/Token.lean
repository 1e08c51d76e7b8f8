/-
# FilterQuery.Code.Token -- what program text is made of

Types and the parameters of declarations are written in the language that declares them, and that
text is cut into words, lifetimes, literals, marks and brackets. A mark is one character. Marks
that are written without a blank between them can make one sign, so a mark knows whether another
follows at once.
-/

namespace FilterQuery.Code

/-! ## Tokens -/

/-- What a pair of brackets looks like. -/
inductive Delimiter where
  | round
  | square
  | curly
  deriving Repr, DecidableEq

namespace Delimiter

/-- The opening bracket. -/
def opening : Delimiter → String
  | round => "("
  | square => "["
  | curly => "\x7b"

/-- The closing bracket. -/
def closing : Delimiter → String
  | round => ")"
  | square => "]"
  | curly => "\x7d"

/-- A text in brackets. -/
def enclose (d : Delimiter) (s : String) : String := d.opening ++ s ++ d.closing

end Delimiter

/-- A token, as it is spelled. Words are names and keywords, literals are numbers, characters and
strings, and a mark is `joint` if another one follows without a blank. -/
inductive Token where
  | word (spelling : String)
  | lifetime (spelling : String)
  | literal (spelling : String)
  | mark (c : Char) (joint : Bool)
  | opening (d : Delimiter)
  | closing (d : Delimiter)
  deriving Repr, DecidableEq

/-- A text without its spaces. -/
def closedUp (s : String) : String := String.ofList (s.toList.filter (· != ' '))

/-- The closed up text of a token. A literal loses the spaces that it holds. -/
def Token.text : Token → String
  | word s | lifetime s | literal s => closedUp s
  | mark c _ => String.singleton c
  | opening d => d.opening
  | closing d => d.closing

/-! ## Words -/

/-- The words that are no names. -/
def keywords : List String :=
  ["_", "abstract", "as", "async", "await", "become", "box", "break", "const", "continue", "crate",
    "do", "dyn", "else", "enum", "extern", "false", "final", "fn", "for", "if", "impl", "in", "let",
    "loop", "macro", "match", "mod", "move", "mut", "override", "priv", "pub", "ref", "return",
    "Self", "self", "static", "struct", "super", "trait", "true", "try", "type", "typeof",
    "unsafe", "unsized", "use", "virtual", "where", "while", "yield"]

/-- The keywords that stand for places in paths. -/
def pathKeywords : List String := ["self", "Self", "super", "crate"]

end FilterQuery.Code
