/-
# FilterQuery.Sample -- converters and predicates to try things with

Converters and custom predicates with a plain behaviour each: some give a value, some give none,
some fail in one of the ways in which collaborators fail.
-/

import FilterQuery.Settings

namespace FilterQuery

open Text

namespace Sample

/-- The text with its ASCII letters in upper case. -/
def upperCase (s : String) : String := String.ofList (s.toList.map Char.toUpper)

/-- What a converter does: it gives a custom value of the text in upper case, the integer behind a
number sign, the null value, the number of characters or the text itself, or refuses all texts. -/
inductive ConverterKind where
  | upperCase
  | numberSign
  | reject
  | null
  | count
  | text
  deriving Repr, DecidableEq

/-- A converter for the type `t`. -/
def converter (t : ValueType) : ConverterKind → Converter
  | .upperCase => fun s => some (.custom t.name (upperCase s))
  | .numberSign => fun s =>
    match s.toList with
    | '#' :: r => (Integer.read? .i32 r).map .int
    | _ => none
  | .reject => fun _ => none
  | .null => fun _ => some .null
  | .count => fun s => (Integer.ofInt? .u64 s.length).map .int
  | .text => fun s => some (.string s)

/-- The failure with which predicates refuse a comparison. -/
def unsupported : Failure := .plain "not supported here" .invalidOperation

/-- What a predicate does: it builds a condition of the leaf, gives what always holds, or reports a
message or a failure; contexts can stand around these, and a failure can have a cause. -/
inductive PredicateKind where
  | leaf
  | always
  | message
  | messageInContexts
  | failure
  | failureInContext
  | causedFailure
  deriving Repr, DecidableEq

/-- What a predicate builds, where `own` is the condition of a leaf and `holds` always holds. -/
def predicate {C : Type} (own : Leaf → C) (holds : C) :
    PredicateKind → Leaf → Except Report C
  | .leaf => fun l => .ok (own l)
  | .always => fun _ => .ok holds
  | .message => fun l => .error (.message ("predicate failed on " ++ l.attributePath))
  | .messageInContexts => fun _ => .error ((Report.message "inner").within ["middle", "outer"])
  | .failure => fun _ => .error (.failure unsupported)
  | .failureInContext => fun _ => .error ((Report.failure unsupported).within ["outer"])
  | .causedFailure => fun _ =>
    .error (.failure (.mk "chained" .internal (some unsupported)))

end Sample

end FilterQuery
