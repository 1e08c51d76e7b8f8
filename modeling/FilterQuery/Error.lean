/-
# FilterQuery.Error -- why compiling a filter fails

Every failure carries a *kind* with the data that a caller needs to say what went wrong, a
*message* for a reader, and possibly the failure that caused it. Each wording of the library
stands once, in the function named for its cause.

Collaborators (converters, custom predicates) report plain messages or failures of this library,
wrapped in contexts. `Report.toFailure` turns a report into a failure: a failure of this library
comes back as it was, a plain message becomes a predicate failure that names its contexts from
the outermost to the innermost.
-/

namespace FilterQuery

/-- What went wrong. A lexical error says that no token starts with a character, one of the grammar
which tokens were expected; a conversion fails for an argument that is no text of the type it is
compared at, and an operation is invalid that does not fit the present state. -/
inductive ErrorKind where
  | lexical (character : Char) (offset : Nat)
  | grammar (expected : List String) (found : String) (lastToken : Option String)
      (line column : Nat)
  | unknownOperator (symbol : String)
  | unknownSelector (entity name : String)
  | accessDenied (entity name : String)
  | conversion (value typeName : String)
  | invalidArgument
  | invalidOperation
  | predicate
  | internal
  deriving Repr, DecidableEq

/-- The short text of a kind. -/
def ErrorKind.text : ErrorKind → String
  | .lexical character offset => s!"Lexical error at offset {offset}: '{character}'"
  | .grammar _ _ _ line column => s!"Syntax error at line {line}, column {column}"
  | .unknownOperator symbol => s!"Unknown operator {symbol}"
  | .unknownSelector entity name => s!"Unknown selector {entity}.{name}"
  | .accessDenied entity name => s!"Access denied to {entity}.{name}"
  | .conversion value typeName => s!"Conversion error: '{value}' as {typeName}"
  | .invalidArgument => "Invalid argument"
  | .invalidOperation => "Invalid operation"
  | .predicate => "Predicate error"
  | .internal => "Internal error"

/-- A failure: its message, its kind and, if known, the failure that caused it. -/
inductive Failure where
  | mk (message : String) (kind : ErrorKind) (cause : Option Failure)
  deriving Repr

namespace Failure

/-- The message for a reader. -/
def message : Failure → String
  | mk m _ _ => m

/-- What went wrong. -/
def kind : Failure → ErrorKind
  | mk _ k _ => k

/-- The failure that caused this one. -/
def cause : Failure → Option Failure
  | mk _ _ c => c

/-- A failure without a cause. -/
def plain (message : String) (kind : ErrorKind) : Failure := mk message kind none

/-- The messages of the causes, the nearest first. -/
def causes : Failure → List String
  | mk _ _ none => []
  | mk _ _ (some c) => c.message :: c.causes

/-! ## Reading text -/

/-- No token starts with `character`. -/
def illegalCharacter (character : Char) (offset : Nat) : Failure :=
  plain s!"Illegal character '{character}' at offset {offset}" (.lexical character offset)

/-- A token stands where the grammar wants another. -/
def unexpected (expected : List String) (found : String) (lastToken : Option String)
    (line column : Nat) : Failure :=
  let choices := String.intercalate ", " expected
  plain s!"Encountered {found} at line {line}, column {column}. Was expecting one of: {choices}"
    (.grammar expected found lastToken line column)

/-- The symbol is not registered. -/
def unknownOperator (symbol : String) : Failure :=
  plain s!"Unknown operator: {symbol}" (.unknownOperator symbol)

/-! ## Building operators and nodes -/

/-- An operator without symbols. -/
def noSymbol : Failure :=
  plain "Comparison operator requires at least one symbol" .invalidArgument

/-- A text that has not the shape of a comparison symbol. -/
def badSymbol (symbol : String) : Failure :=
  plain s!"Symbol '{symbol}' must match =[a-zA-Z]*= or [><]=? or !=" .invalidArgument

/-- A logical node without children. -/
def noChild : Failure := plain "Logical node requires at least one child" .invalidArgument

/-- A comparison whose selector is blank. -/
def blankSelector : Failure := plain "Selector must not be blank" .invalidArgument

/-- A comparison whose selector would need quotes. -/
def reservedInSelector (selector : String) (character : Char) : Failure :=
  plain s!"Selector '{selector}' contains reserved character '{character}'" .invalidArgument

/-- A comparison without arguments. -/
def noArgument (selector : String) : Failure :=
  plain s!"Comparison on '{selector}' requires at least one argument" .invalidArgument

/-- A list of `count` arguments for an operator that takes one. -/
def argumentCount (symbol : String) (count : Nat) : Failure :=
  plain s!"Operator {symbol} expects a single argument, but {count} were given" .invalidArgument

/-! ## Resolving and configuring -/

/-- The entity has no such attribute. -/
def unknownSelector (entity name : String) : Failure :=
  plain s!"Unknown property '{name}' on entity {entity}" (.unknownSelector entity name)

/-- An access list rejects the attribute. -/
def accessDenied (entity name : String) : Failure :=
  plain s!"Access to '{name}' on {entity} is denied" (.accessDenied entity name)

/-- An argument is no text of the type. -/
def inconvertible (raw typeName : String) : Failure :=
  plain s!"Cannot convert '{raw}' to {typeName}" (.conversion raw typeName)

/-- The catalog holds no schema of the entity. -/
def unregisteredEntity (entity : String) : Failure :=
  plain s!"Entity {entity} is not registered" .invalidOperation

/-- A nesting depth of zero admits no group at all and is refused. -/
def zeroDepth : Failure := plain "Maximum nesting depth must be positive" .invalidArgument

end Failure

/-! ## Reports of collaborators -/

/-- What a collaborator reports: a message or a failure of this library, wrapped in contexts. -/
inductive Report where
  | message (text : String)
  | failure (f : Failure)
  | context (text : String) (inner : Report)
  deriving Repr

namespace Report

/-- The report wrapped in contexts, the first of them innermost. -/
def within (r : Report) (contexts : List String) : Report :=
  contexts.foldl (fun inner text => .context text inner) r

/-- The failure at the root, if it is one of this library. -/
def root? : Report → Option Failure
  | .message _ => none
  | .failure f => some f
  | .context _ inner => inner.root?

/-- All that is said, the outermost first. -/
def texts : Report → List String
  | .message text => [text]
  | .failure f => f.message :: f.causes
  | .context text inner => text :: inner.texts

/-- The failure that a report stands for: contexts around a failure of this library are dropped,
contexts around a plain message are kept in its text. -/
def toFailure (r : Report) : Failure :=
  match r.root? with
  | some f => f
  | none => .plain (String.intercalate ": " r.texts) .predicate

end Report

end FilterQuery
