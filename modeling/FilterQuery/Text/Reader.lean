/-
# FilterQuery.Text.Reader -- reading fixed formats

A reader takes characters from the front of a text, or refuses it. The formats of numbers, dates
and identifiers are written with the few readers of this module; a format in which a digit may
stand in several places says for each field how many digits it takes.
-/

import FilterQuery.Text.Blank

namespace FilterQuery.Text

/-- Whether `c` is an ASCII digit. -/
def isDigit (c : Char) : Bool := c.isDigit

/-- The number that decimal digits write. -/
def natOfDigits (cs : List Char) : Nat := Nat.ofDigitChars 10 cs 0

/-- The decimal digits of a number, without leading zeros. -/
def digitsOfNat (n : Nat) : List Char := Nat.toDigits 10 n

/-- The decimal digits of a number, with zeros in front up to the given width. -/
def paddedDigits (width n : Nat) : List Char :=
  let ds := digitsOfNat n
  List.replicate (width - ds.length) '0' ++ ds

/-- Takes characters from the front of a text, or refuses it. -/
abbrev Reader := StateT (List Char) Option

namespace Reader

/-- Reads a whole text; nothing may be left. -/
def readAll {α : Type} (r : Reader α) (s : String) : Option α :=
  match r.run s.toList with
  | some (a, []) => some a
  | _ => none

/-- Refuses every text. -/
def refuse {α : Type} : Reader α := fun _ => none

/-- The next character, which must pass a test. -/
def char (p : Char → Bool) : Reader Char := fun
  | c :: r => if p c then some (c, r) else none
  | [] => none

/-- One given character. -/
def literal (c : Char) : Reader Unit := do
  let _ ← char (· == c)

/-- The longest run of characters that pass a test. -/
def takeWhile (p : Char → Bool) : Reader (List Char) := fun cs =>
  some (cs.takeWhile p, cs.dropWhile p)

/-- Skips blanks. -/
def blanks : Reader Unit := fun cs => some ((), skipBlanks cs)

/-- The next character, if there is one; takes nothing. -/
def peek : Reader (Option Char) := fun cs => some (cs.head?, cs)

/-- The leading digits of a text, at most `limit` of them, and what follows. -/
def splitDigits : Nat → List Char → List Char × List Char
  | 0, cs => ([], cs)
  | _ + 1, [] => ([], [])
  | n + 1, c :: r =>
    if isDigit c then
      let (ds, rest) := splitDigits n r
      (c :: ds, rest)
    else ([], c :: r)

/-- A number of one to `limit` digits; more digits are left. -/
def number (limit : Nat) : Reader Nat := fun cs =>
  match splitDigits limit cs with
  | ([], _) => none
  | (ds, rest) => some (natOfDigits ds, rest)

/-- A number of exactly `width` digits; more digits are left. -/
def fixedNumber (width : Nat) : Reader Nat := fun cs =>
  let (ds, rest) := splitDigits width cs
  if ds.length = width then some (natOfDigits ds, rest) else none

/-- A number of one digit or more. -/
def anyNumber : Reader Nat := do
  match ← takeWhile isDigit with
  | [] => refuse
  | ds => return natOfDigits ds

end Reader

end FilterQuery.Text
