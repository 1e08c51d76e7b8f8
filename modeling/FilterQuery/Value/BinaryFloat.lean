/-
# FilterQuery.Value.BinaryFloat -- binary floating point numbers, exactly

A finite number of a binary format is `m * 2 ^ e` with a sign, where `m` has at most as many bits
as the format's precision and `e` is not below the exponent of its smallest numbers. Everything
here is integer arithmetic on `m` and `e`: a rational number is rounded to the nearest number of
a format, and of two nearest ones to the one with an even `m`.

Canonical numbers (all that `round` gives) have the full precision, or the least exponent. Two
canonical numbers of a format are equal only when they have the same sign, `m` and `e`, zero
apart, which has two signs.
-/

import FilterQuery.Text.Reader

namespace FilterQuery

open Text

/-- The binary formats. -/
inductive FloatType where
  | f32
  | f64
  deriving Repr, DecidableEq

namespace FloatType

/-- The number of bits of a significand. -/
def precision : FloatType → Nat
  | f32 => 24
  | f64 => 53

/-- The exponent of the smallest numbers. -/
def leastExponent : FloatType → Int
  | f32 => -149
  | f64 => -1074

/-- The exponent of the greatest numbers. -/
def greatestExponent : FloatType → Int
  | f32 => 104
  | f64 => 971

/-- The name of the type in messages. -/
def name : FloatType → String
  | f32 => "f32"
  | f64 => "f64"

end FloatType

/-- A number of a binary format: `± m * 2 ^ e`, one that is greater in size than all of these, or
none at all. -/
inductive BinaryFloat where
  | nan
  | infinity (negative : Bool)
  | finite (negative : Bool) (m : Nat) (e : Int)
  deriving Repr, DecidableEq

/-- The quotient `a / b` rounded to the nearest integer, a half to the even one. -/
def divToEven (a b : Nat) : Nat :=
  let q := a / b
  let r := a % b
  if 2 * r < b ∨ (2 * r = b ∧ q % 2 = 0) then q else q + 1

namespace BinaryFloat

/-- The ratio `a / b` times `base ^ k`. -/
def scale (base : Nat) (a b : Nat) (k : Int) : Nat × Nat :=
  if 0 ≤ k then (a * Nat.pow base k.toNat, b) else (a, b * Nat.pow base (-k).toNat)

/-- The exponent at which the ratio `a / b` has the precision of `t`, but not below that of the
smallest numbers. -/
def exponentFor (t : FloatType) (a b : Nat) : Int :=
  let guess : Int := (Nat.log2 a : Int) - Nat.log2 b - t.precision
  let (a', b') := scale 2 a b (-guess)
  max t.leastExponent (if a' / b' < Nat.pow 2 t.precision then guess else guess + 1)

/-- The number of the format `t` nearest to the ratio `± a / b`. -/
def round (t : FloatType) (negative : Bool) (a b : Nat) : BinaryFloat :=
  if a = 0 then finite negative 0 t.leastExponent
  else
    let e := exponentFor t a b
    let (a', b') := scale 2 a b (-e)
    let m := divToEven a' b'
    let (m, e) := if m = Nat.pow 2 t.precision then (m / 2, e + 1) else (m, e)
    if t.greatestExponent < e then infinity negative else finite negative m e

/-- The size of a finite number as a ratio. -/
def ratio (m : Nat) (e : Int) : Nat × Nat := scale 2 m 1 e

/-- The number of `t` nearest to an integer. -/
def ofInt (t : FloatType) (n : Int) : BinaryFloat := round t (n < 0) n.natAbs 1

/-- The number of `t` nearest to a number of another format. -/
def cast (t : FloatType) : BinaryFloat → BinaryFloat
  | nan => nan
  | infinity s => infinity s
  | finite s m e => let (a, b) := ratio m e; round t s a b

/-- The number with the other sign. -/
def negate : BinaryFloat → BinaryFloat
  | nan => nan
  | infinity s => infinity !s
  | finite s m e => finite (!s) m e

/-- Whether two numbers of one format are equal as numbers: no number is equal to `nan`, and both
zeros are equal. -/
def numEq : BinaryFloat → BinaryFloat → Bool
  | infinity s, infinity t => s == t
  | finite s m e, finite t n f => (m == 0 && n == 0) || (s == t && m == n && e == f)
  | _, _ => false

/-! ## Reading decimal text -/

/-- A decimal number as it is written: `digits * 10 ^ exponent`, the digits without their point. -/
structure Decimal where
  digits : List Char
  exponent : Int

/-- The number of `t` nearest to `± digits * 10 ^ exponent`. Texts whose first digit counts a
power of ten beyond all formats are not worked out: they are infinite or zero. -/
def ofDecimal (t : FloatType) (negative : Bool) (d : Decimal) : BinaryFloat :=
  let digits := d.digits.dropWhile (· == '0')
  let point := (digits.length : Int) + d.exponent
  if digits.isEmpty ∨ point < -400 then finite negative 0 t.leastExponent
  else if 400 < point then infinity negative
  else
    let (a, b) := scale 10 (natOfDigits digits) 1 d.exponent
    round t negative a b

/-- An exponent: a mark, a sign that may be missing, and digits. -/
def exponentPart : Reader Int := do
  let _ ← Reader.char fun c => c == 'e' || c == 'E'
  match ← Reader.peek with
  | some '+' =>
    Reader.literal '+'
    return (← Reader.anyNumber)
  | some '-' =>
    Reader.literal '-'
    return -(← Reader.anyNumber)
  | _ => return (← Reader.anyNumber)

/-- Digits with a point that may be missing and an exponent that may be missing. There must be a
digit on one side of the point. -/
def decimal : Reader Decimal := do
  let whole ← Reader.takeWhile isDigit
  let fraction ← match ← Reader.peek with
    | some '.' =>
      Reader.literal '.'
      Reader.takeWhile isDigit
    | _ => pure []
  if whole.isEmpty && fraction.isEmpty then Reader.refuse
  else
    let exponent ← match ← Reader.peek with
      | some c => if c == 'e' || c == 'E' then exponentPart else pure 0
      | none => pure 0
    return ⟨whole ++ fraction, exponent - fraction.length⟩

/-- A number without its sign: a word for infinity or for no number in any case, or a decimal. -/
def readUnsigned? (t : FloatType) (negative : Bool) (s : String) : Option BinaryFloat :=
  let lower := s.toLower
  if lower == "inf" || lower == "infinity" then some (infinity negative)
  else if lower == "nan" then some nan
  else (decimal.readAll s).map (ofDecimal t negative)

/-- The number of `t` that a text writes: a sign that may be missing, then a number. -/
def read? (t : FloatType) (s : String) : Option BinaryFloat :=
  match s.toList with
  | '+' :: r => readUnsigned? t false (String.ofList r)
  | '-' :: r => readUnsigned? t true (String.ofList r)
  | _ => readUnsigned? t false s

end BinaryFloat

end FilterQuery
