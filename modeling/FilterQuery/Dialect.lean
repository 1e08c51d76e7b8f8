/-
# FilterQuery.Dialect -- the query language with its operators and its nesting limit

A dialect knows a set of comparison symbols and how deep groups may nest. Its grammar is

    input      = or, end
    or         = and, { ",", and }
    and        = constraint, { ";", constraint }
    constraint = "(", or, ")" | comparison
    comparison = bare text, symbol, arguments
    arguments  = "(", value, { ",", value }, ")" | value
    value      = bare text | quoted text

Reading is a machine that takes one token at a time. Its state holds the groups that are still
open, each with the nodes that it has collected, and a `Phase` that says what must come next. All
that a token can do is decided from the state and that token, so a run over a list of tokens is a
fold.

Failures come in the order in which a reader with one token of lookahead meets them. The tokens
are read from the text one ahead: a token that cannot be read is reported before anything that
concerns a later one. A comparison is built when the token behind its arguments has been read and
before that token is judged; that is why a completed comparison is a phase of its own, and why an
unknown symbol is reported only then.
-/

import FilterQuery.Node
import FilterQuery.Operator.Registry
import FilterQuery.Token.Lexer

namespace FilterQuery

/-- The query language with its operators and its nesting limit, the number of groups that may be
open at once. -/
structure Dialect where
  operators : Registry := .standard
  maxDepth : Nat := 64

namespace Dialect

/-- The comparison written with `symbol`, if the dialect knows that. -/
def compare (d : Dialect) (symbol selector : String) (arguments : List String) :
    Except Failure Node :=
  match d.operators.get? symbol with
  | some o => Node.compare o selector arguments
  | none => .error (.unknownOperator symbol)

/-- What a group has collected, apart from the constraint that is being read: the finished operands
of its "or", and those of the "and" that is being read, the nearest first. -/
structure Frame where
  disjuncts : List Node := []
  conjuncts : List Node := []

namespace Frame

/-- The frame of a group in which nothing has been read. -/
def empty : Frame := {}

/-- The frame after `last` and a semicolon. -/
def semicolon (f : Frame) (last : Node) : Frame := ⟨f.disjuncts, last :: f.conjuncts⟩

/-- The frame after `last` and a comma. -/
def comma (f : Frame) (last : Node) : Frame := ⟨.gather .and last f.conjuncts :: f.disjuncts, []⟩

/-- The node of the whole group that ends with `last`. -/
def finish (f : Frame) (last : Node) : Node :=
  .gather .or (.gather .and last f.conjuncts) f.disjuncts

end Frame

/-- What must come next, with the parts of a comparison that have been read; the values of a list
are given the nearest first. In `compared` all parts have been read, but the comparison has not been
built, and in `ended` a constraint has ended with a node. -/
inductive Phase where
  | constraint
  | operator (selector : String)
  | arguments (selector symbol : String)
  | element (selector symbol : String) (before : List String)
  | separator (selector symbol : String) (before : List String)
  | compared (selector symbol : String) (arguments : List String)
  | ended (node : Node)

/-- The state of a reader between two tokens. The groups around the present one are given the
innermost first, and at the outset the present group is the whole input. -/
structure State where
  outer : List Frame := []
  frame : Frame := .empty
  phase : Phase := .constraint
  last : Option Token := none

namespace State

/-- The failure that `t` stands where one of `expected` must. -/
def unexpected (s : State) (t : Token) (expected : List String) : Failure :=
  .unexpected expected t.describe (s.last.map Token.describe) t.start.line t.start.column

/-- Builds the comparison whose parts have been read. -/
def settle (d : Dialect) (s : State) : Except Failure State :=
  match s.phase with
  | .compared selector symbol arguments =>
    (d.compare symbol selector arguments).map fun node => { s with phase := .ended node }
  | _ => .ok s

/-- What may follow a constraint. -/
def afterConstraint (s : State) : List String :=
  if s.outer.isEmpty then ["';'", "','", "<EOF>"] else ["')'", "';'", "','"]

/-- What may come in a phase, as it is named in messages. -/
def expected (s : State) : List String :=
  match s.phase with
  | .constraint => ["selector", "'('"]
  | .operator _ => ["comparison operator"]
  | .arguments _ _ | .element _ _ _ => ["argument"]
  | .separator _ _ _ => ["','", "')'"]
  | .compared _ _ _ | .ended _ => s.afterConstraint

/-- Opens a group, unless too many are open. -/
def openGroup (d : Dialect) (s : State) (t : Token) : Except Failure State :=
  if s.outer.length < d.maxDepth then
    .ok { s with outer := s.frame :: s.outer, frame := .empty, phase := .constraint }
  else
    let limit := d.maxDepth
    .error (s.unexpected t [s!"at most {limit} nested groups"])

/-- Takes a token in a state whose comparison, if one has ended, is built. -/
def step (d : Dialect) (s : State) (t : Token) : Except Failure State :=
  match s.phase, t.lexeme with
  | .constraint, .opening => s.openGroup d t
  | .constraint, .bare selector => .ok { s with phase := .operator selector }
  | .operator selector, .operator symbol => .ok { s with phase := .arguments selector symbol }
  | .arguments selector symbol, .opening => .ok { s with phase := .element selector symbol [] }
  | .arguments selector symbol, .bare v => .ok { s with phase := .compared selector symbol [v] }
  | .arguments selector symbol, .quoted v => .ok { s with phase := .compared selector symbol [v] }
  | .element selector symbol before, .bare v =>
    .ok { s with phase := .separator selector symbol (v :: before) }
  | .element selector symbol before, .quoted v =>
    .ok { s with phase := .separator selector symbol (v :: before) }
  | .separator selector symbol before, .or =>
    .ok { s with phase := .element selector symbol before }
  | .separator selector symbol before, .closing =>
    .ok { s with phase := .compared selector symbol before.reverse }
  | .ended node, .and => .ok { s with frame := s.frame.semicolon node, phase := .constraint }
  | .ended node, .or => .ok { s with frame := s.frame.comma node, phase := .constraint }
  | .ended node, .closing =>
    match s.outer with
    | f :: outer =>
      .ok { s with outer := outer, frame := f, phase := .ended (s.frame.finish node) }
    | [] => .error (s.unexpected t s.expected)
  | _, _ => .error (s.unexpected t s.expected)

/-- Takes a token: builds the comparison before it, then goes on. -/
def feed (d : Dialect) (s : State) (t : Token) : Except Failure State := do
  let s ← s.settle d
  let s ← s.step d t
  return { s with last := some t }

/-- The node of the whole input, which ends with the token `t`. -/
def finish (d : Dialect) (s : State) (t : Token) : Except Failure Node := do
  let s ← s.settle d
  match s.phase, s.outer with
  | .ended node, [] => .ok (s.frame.finish node)
  | _, _ => .error (s.unexpected t s.expected)

end State

/-- Reads tokens from the outset. -/
def run (d : Dialect) (ts : List Token) : Except Failure State :=
  ts.foldlM (State.feed d) {}

/-- The tree of a token sequence. A fault behind the tokens is met when all of them have been
taken. -/
def parseTokens (d : Dialect) (ts : Tokens) : Except Failure Node := do
  let s ← d.run ts.tokens
  match ts.ending with
  | .fault f => .error f.toFailure
  | .eof t => s.finish d t

/-- The tree of a text. -/
def parse (d : Dialect) (text : String) : Except Failure Node :=
  d.parseTokens (tokenize text)

end Dialect

end FilterQuery
