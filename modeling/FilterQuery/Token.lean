/-
# FilterQuery.Token -- the words of a filter

A token is a lexeme with the place where it starts. Places count characters (Unicode scalar
values): the offset from 0, lines and columns from 1. Only a line feed starts a new line.
-/

import FilterQuery.Error

namespace FilterQuery

/-- A place in a text: the number of characters before it, its line, and its column; lines end with
line feeds, and both count from 1. -/
structure Position where
  offset : Nat := 0
  line : Nat := 1
  column : Nat := 1
  deriving Repr, DecidableEq

namespace Position

/-- The place behind a character. -/
def next (p : Position) (c : Char) : Position :=
  if c = '\n' then ⟨p.offset + 1, p.line + 1, 1⟩ else ⟨p.offset + 1, p.line, p.column + 1⟩

/-- The place behind some characters. -/
def after (p : Position) (cs : List Char) : Position := cs.foldl next p

@[simp] theorem after_nil (p : Position) : p.after [] = p := rfl

@[simp] theorem after_append (p : Position) (cs ds : List Char) :
    p.after (cs ++ ds) = (p.after cs).after ds :=
  List.foldl_append

end Position

/-- What a token says. A semicolon stands for "and", a comma for "or" or between arguments, and a
quoted text is given without its quotes and with its escapes resolved. -/
inductive Lexeme where
  | and
  | or
  | opening
  | closing
  | operator (symbol : String)
  | bare (text : String)
  | quoted (text : String)
  | eof
  deriving Repr, DecidableEq

namespace Lexeme

/-- The name of a lexeme in messages. -/
def describe : Lexeme → String
  | .and => "';'"
  | .or => "','"
  | .opening => "'('"
  | .closing => "')'"
  | .operator symbol => s!"operator '{symbol}'"
  | .bare text => s!"'{text}'"
  | .quoted text => s!"quoted '{text}'"
  | .eof => "<EOF>"

/-- The text that a lexeme carries; punctuation and the end carry none. -/
def text? : Lexeme → Option String
  | .operator t | .bare t | .quoted t => some t
  | _ => none

end Lexeme

/-- A lexeme and the place where it starts. -/
structure Token where
  lexeme : Lexeme
  start : Position
  deriving Repr, DecidableEq

/-- The name of a token in messages. -/
def Token.describe (t : Token) : String := t.lexeme.describe

/-- No token starts with `character`, which stands at `offset`; it is the quote when a quoted text
does not end. -/
structure LexicalFault where
  character : Char
  offset : Nat
  deriving Repr, DecidableEq

/-- A lexical fault as a failure. -/
def LexicalFault.toFailure (f : LexicalFault) : Failure :=
  .illegalCharacter f.character f.offset

end FilterQuery
