/-
# FilterQuery.Json.Reader -- from text to JSON trees

A text is first cut into marks: brackets, commas, colons, and values that are no containers. A
machine then takes the marks one after the other and keeps the containers that are still open, the
innermost first.
-/

import FilterQuery.Json

namespace FilterQuery

open Text

namespace Json

/-! ## Marks -/

/-- A piece of JSON text. Values are those that are no containers. -/
inductive Mark where
  | beginArray
  | endArray
  | beginObject
  | endObject
  | comma
  | colon
  | value (v : Json)

/-- Whether `c` may stand between marks. -/
def isSpace (c : Char) : Bool := c == ' ' || c == '\t' || c == '\n' || c == '\r'

/-- A part of a string: a character, or a code unit that an escape names by number. -/
inductive Unit16 where
  | char (c : Char)
  | code (n : Nat)

/-- The value of a hexadecimal digit. -/
def hexValue? (c : Char) : Option Nat :=
  if c.isDigit then some (c.toNat - '0'.toNat)
  else if 'a' ≤ c ∧ c ≤ 'f' then some (c.toNat - 'a'.toNat + 10)
  else if 'A' ≤ c ∧ c ≤ 'F' then some (c.toNat - 'A'.toNat + 10)
  else none

/-- The number that four hexadecimal digits write. -/
def hexNumber? (a b c d : Char) : Option Nat := do
  let a ← hexValue? a
  let b ← hexValue? b
  let c ← hexValue? c
  let d ← hexValue? d
  return ((a * 16 + b) * 16 + c) * 16 + d

/-- The character that an escape of one letter stands for. -/
def unescape? : Char → Option Char
  | '"' => some '"'
  | '\\' => some '\\'
  | '/' => some '/'
  | 'b' => some '\x08'
  | 'f' => some '\x0c'
  | 'n' => some '\n'
  | 'r' => some '\r'
  | 't' => some '\t'
  | _ => none

/-- Reads a string behind its opening quote: its parts and what follows the closing quote. -/
def stringUnits : List Char → Option (List Unit16 × List Char)
  | [] => none
  | '"' :: r => some ([], r)
  | '\\' :: 'u' :: a :: b :: c :: d :: r =>
    match hexNumber? a b c d, stringUnits r with
    | some n, some (us, rest) => some (.code n :: us, rest)
    | _, _ => none
  | '\\' :: e :: r =>
    match unescape? e, stringUnits r with
    | some c, some (us, rest) => some (.char c :: us, rest)
    | _, _ => none
  | c :: r =>
    if c.toNat < 0x20 then none
    else (stringUnits r).map fun (us, rest) => (.char c :: us, rest)

/-- Whether a code unit is the first half of a pair. -/
def isHighHalf (n : Nat) : Bool := 0xD800 ≤ n && n ≤ 0xDBFF

/-- Whether a code unit is the second half of a pair. -/
def isLowHalf (n : Nat) : Bool := 0xDC00 ≤ n && n ≤ 0xDFFF

/-- The characters of a string; none when half of a pair stands alone. -/
def assemble : List Unit16 → Option (List Char)
  | [] => some []
  | .char c :: r => (assemble r).map (c :: ·)
  | .code n :: .code m :: r =>
    if isHighHalf n then
      if isLowHalf m then
        (assemble r).map (Char.ofNat (0x10000 + (n - 0xD800) * 0x400 + (m - 0xDC00)) :: ·)
      else none
    else if isLowHalf n then none
    else (assemble (.code m :: r)).map (Char.ofNat n :: ·)
  | .code n :: r =>
    if isHighHalf n || isLowHalf n then none else (assemble r).map (Char.ofNat n :: ·)

/-- Reads a number: the text of it and what follows. -/
def numberText (cs : List Char) : Option (List Char × List Char) :=
  let (sign, cs) := match cs with
    | '-' :: r => (['-'], r)
    | r => ([], r)
  let whole := cs.takeWhile isDigit
  let cs := cs.dropWhile isDigit
  if whole = [] ∨ (whole.head? = some '0' ∧ whole.length ≠ 1) then none
  else
    let fraction := match cs with
      | '.' :: r =>
        let ds := r.takeWhile isDigit
        if ds = [] then none else some ('.' :: ds, r.dropWhile isDigit)
      | r => some ([], r)
    match fraction with
    | none => none
    | some (fraction, cs) =>
      let exponent := match cs with
        | c :: r =>
          if c = 'e' ∨ c = 'E' then
            let (sign, r) := match r with
              | '+' :: r => (['+'], r)
              | '-' :: r => (['-'], r)
              | r => ([], r)
            let ds := r.takeWhile isDigit
            if ds = [] then none else some (c :: sign ++ ds, r.dropWhile isDigit)
          else some ([], c :: r)
        | [] => some ([], [])
      exponent.map fun (exponent, cs) => (sign ++ whole ++ fraction ++ exponent, cs)

/-- Reads one mark and gives what follows it; blanks have been skipped. -/
def mark? : List Char → Option (Mark × List Char)
  | '[' :: r => some (.beginArray, r)
  | ']' :: r => some (.endArray, r)
  | '\x7b' :: r => some (.beginObject, r)
  | '\x7d' :: r => some (.endObject, r)
  | ',' :: r => some (.comma, r)
  | ':' :: r => some (.colon, r)
  | '"' :: r =>
    (stringUnits r).map fun (us, rest) =>
      match assemble us with
      | some cs => (.value (.string (String.ofList cs)), rest)
      | none => (.value .unreadable, rest)
  | 'n' :: 'u' :: 'l' :: 'l' :: r => some (.value .null, r)
  | 't' :: 'r' :: 'u' :: 'e' :: r => some (.value (.bool true), r)
  | 'f' :: 'a' :: 'l' :: 's' :: 'e' :: r => some (.value (.bool false), r)
  | cs => (numberText cs).map fun (text, rest) => (.value (.number (String.ofList text)), rest)

/-- The marks of a text. No text has more marks than characters. -/
def marks : Nat → List Char → Option (List Mark)
  | fuel, cs =>
    match cs.dropWhile isSpace, fuel with
    | [], _ => some []
    | _, 0 => none
    | cs, fuel + 1 =>
      match mark? cs with
      | some (m, r) => (marks fuel r).map (m :: ·)
      | none => none

/-! ## The machine -/

/-- A container that is still open. Its parts are given, the nearest first. A name that is no string
is none, and after a name a value must come. -/
inductive Container where
  | array (items : List Json)
  | object (fields : List (Option String × Json))
  | named (fields : List (Option String × Json)) (name : Option String)

/-- What must come next. Where the first item or the first name is expected the container may end,
and nothing is expected when the value is complete. -/
inductive Expecting where
  | value
  | firstItem
  | name
  | firstName
  | colon (name : Option String)
  | separator
  | nothing (v : Json)

/-- A machine between two marks, the open containers given the innermost first. -/
structure Machine where
  expecting : Expecting := .value
  containers : List Container := []

/-- An object of the given fields, the nearest first. -/
def closeObject (fields : List (Option String × Json)) : Json :=
  match fields.reverse.mapM fun (k, v) => k.map (·, v) with
  | some fields => .object fields
  | none => .unreadable

namespace Machine

/-- Takes a complete value. -/
def complete (v : Json) : List Container → Option Machine
  | [] => some ⟨.nothing v, []⟩
  | .array items :: r => some ⟨.separator, .array (v :: items) :: r⟩
  | .named fields name :: r => some ⟨.separator, .object ((name, v) :: fields) :: r⟩
  | .object _ :: _ => none

/-- Takes a mark where a value may stand. -/
def takeValue (cs : List Container) : Mark → Option Machine
  | .value v => complete v cs
  | .beginArray => some ⟨.firstItem, .array [] :: cs⟩
  | .beginObject => some ⟨.firstName, .object [] :: cs⟩
  | _ => none

/-- Takes a mark where a name must stand. -/
def takeName (cs : List Container) : Mark → Option Machine
  | .value (.string s) => some ⟨.colon (some s), cs⟩
  | .value .unreadable => some ⟨.colon none, cs⟩
  | _ => none

/-- Takes the end of a container. -/
def takeEnd : List Container → Mark → Option Machine
  | .array items :: r, .endArray => complete (.array items.reverse) r
  | .object fields :: r, .endObject => complete (closeObject fields) r
  | _, _ => none

/-- Takes a mark. -/
def step (m : Machine) (k : Mark) : Option Machine :=
  match m.expecting, k with
  | .value, k => takeValue m.containers k
  | .firstItem, .endArray => takeEnd m.containers .endArray
  | .firstItem, k => takeValue m.containers k
  | .name, k => takeName m.containers k
  | .firstName, .endObject => takeEnd m.containers .endObject
  | .firstName, k => takeName m.containers k
  | .colon name, .colon =>
    match m.containers with
    | .object fields :: r => some ⟨.value, .named fields name :: r⟩
    | _ => none
  | .separator, .comma =>
    match m.containers with
    | .array _ :: _ => some ⟨.value, m.containers⟩
    | .object _ :: _ => some ⟨.name, m.containers⟩
    | _ => none
  | .separator, k => takeEnd m.containers k
  | _, _ => none

/-- The value that a run has come to. -/
def result? (m : Machine) : Option Json :=
  match m.expecting with
  | .nothing v => some v
  | _ => none

end Machine

/-- The tree of a text. -/
def read? (text : String) : Option Json := do
  let cs := text.toList
  let ks ← marks cs.length cs
  let m ← ks.foldlM Machine.step {}
  m.result?

end Json

end FilterQuery
