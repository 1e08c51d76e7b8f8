/-
# FilterQuery.Code.Signature -- the heads of functions

What stands of a function before its body: how it is called, its name, its parameters, its inputs
and its result. An input can be a type alone if it starts with a name and arguments; it is shown
with `_` for the missing pattern.
-/

import FilterQuery.Code.Statement

namespace FilterQuery.Code

/-- Whether a row starts with what a method is called on. -/
def isReceiver (r : Row) : Bool :=
  let r := if isSign "&" r then (if isLifetime r.tail then r.drop 2 else r.tail) else r
  let r := behindWord "mut" r
  isWord "self" r && !isSign "::" r.tail

namespace Grammar

/-- What a method is called on. -/
def receiver (g : Grammar) : Reader String :=
  inOrder [ifAhead (isSign "&") (inOrder [sign "&", lifetime?]), optionalWord "mut", word "self",
    ifAhead isColon (inOrder [sign ":", g.typeText])]

/-- An input with a pattern and a type, or a pattern for all further inputs. -/
def typedInput (g : Grammar) : Reader String :=
  inOrder [g.pattern, sign ":", choose [(isSign "...", sign "..."), (fun _ => true, g.typeText)]]

/-- An input of a function. -/
def input (g : Grammar) : Reader String :=
  inOrder [g.attributes, choose [
    (isSign "...", sign "..."),
    (isReceiver, g.receiver),
    (fun r => isName r && isSign "<" r.tail, inOrder [return "_:", g.typeText]),
    (fun _ => true, g.typedInput)]]

/-- The head of a function, perhaps one that is said to be safe. -/
def signature (g : Grammar) (safe : Bool) : Reader String :=
  inOrder [optionalWord "const", optionalWord "async",
    if safe then optionalWord "safe" else return "",
    optionalWord "unsafe", convention, word "fn", name, g.parametersText,
    group .round (listed g.input), g.result, g.conditions]

end Grammar

end FilterQuery.Code
