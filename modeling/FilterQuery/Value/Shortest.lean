/-
# FilterQuery.Value.Shortest -- the fewest decimal digits that read back

Each finite number of a binary format is the nearest one for an interval of reals; the ends of
the interval belong to it when the significand is even. The number is written with the fewest
digits that name a real of the interval, and of the reals with that many digits the nearest one
is taken. When two are equally near, the style decides.

The search goes through the decimal grids from coarse to fine. On each grid only the two
neighbours of the number can lie in the interval if any grid point does, so the first grid with a
hit has the fewest digits.
-/

import FilterQuery.Value.BinaryFloat

namespace FilterQuery

open Text

/-- How floating point numbers are written. Of two decimals that are equally near, the greater one
is taken or the even one. Numbers are written without an exponent by their format and the place of
the point: the number of digits in front of it, or less than that many zeros behind it. Whole
numbers get the fraction `.0` in such writing, or none. -/
structure FloatStyle where
  tiesUp : Bool
  positional : FloatType → Int → Bool
  wholeFraction : Bool

namespace Shortest

/-- The interval of a positive number, all of it times four over a common divisor: the number itself
and the ends, and whether these belong to it. -/
structure Interval where
  value : Nat
  low : Nat
  high : Nat
  divisor : Nat
  closed : Bool

/-- The interval of the reals that round to `m * 2 ^ e` in the format `t`. The gap below a power
of two is half the gap above it, except at the smallest exponent. -/
def interval (t : FloatType) (m : Nat) (e : Int) : Interval :=
  let below := if m = Nat.pow 2 (t.precision - 1) ∧ t.leastExponent < e then 1 else 2
  let unit := BinaryFloat.scale 2 1 1 (e - 2)
  ⟨4 * m * unit.1, (4 * m - below) * unit.1, (4 * m + 2) * unit.1, unit.2, m % 2 = 0⟩

/-- Whether `c * 10 ^ k` lies in the interval. -/
def Interval.holds (i : Interval) (c : Nat) (k : Int) : Bool :=
  let (x, y) := BinaryFloat.scale 10 c 1 k
  let (low, mid, high) := (i.low * y, x * i.divisor, i.high * y)
  if i.closed then low ≤ mid && mid ≤ high else low < mid && mid < high

/-- The grid point at `10 ^ k` in the interval that is nearest to its number, if there is one. -/
def Interval.nearest? (i : Interval) (tiesUp : Bool) (k : Int) : Option Nat :=
  let (x, y) := BinaryFloat.scale 10 1 1 k
  let (a, b) := (i.value * y, i.divisor * x)
  let c := a / b
  let r := a % b
  let up := b < 2 * r ∨ (2 * r = b ∧ (tiesUp ∨ c % 2 = 1))
  match i.holds c k, i.holds (c + 1) k with
  | true, true => some (if up then c + 1 else c)
  | true, false => some c
  | false, true => some (c + 1)
  | false, false => none

/-- The first hit on the grids from `10 ^ k` down. -/
def Interval.search (i : Interval) (tiesUp : Bool) : Nat → Int → Nat × Int
  | 0, k => (i.value, k)
  | n + 1, k =>
    match i.nearest? tiesUp k with
    | some c => (c, k)
    | none => i.search tiesUp n (k - 1)

/-- Takes trailing zeros off a number, at most `n` of them. -/
def dropZeros : Nat → Nat → Int → Nat × Int
  | 0, c, k => (c, k)
  | n + 1, c, k => if c % 10 = 0 then dropZeros n (c / 10) (k + 1) else (c, k)

/-- The decimal `c * 10 ^ k` with the fewest digits for `m * 2 ^ e`, which is not zero. The first
grid is coarser than the number, and one with 17 digits always has a hit. -/
def digits (t : FloatType) (tiesUp : Bool) (m : Nat) (e : Int) : Nat × Int :=
  let size : Int := Nat.log2 m + e + 1
  let start := size * 30103 / 100000 + 1
  let (c, k) := (interval t m e).search tiesUp 24 start
  dropZeros 17 c k

end Shortest

namespace FloatStyle

/-- Digits with a point behind the first `point` of them. -/
def placePoint (style : FloatStyle) (ds : List Char) (point : Int) : List Char :=
  if point ≤ 0 then '0' :: '.' :: List.replicate (-point).toNat '0' ++ ds
  else
    let whole := point.toNat
    if ds.length ≤ whole then
      ds ++ List.replicate (whole - ds.length) '0' ++
        (if style.wholeFraction then ['.', '0'] else [])
    else ds.take whole ++ '.' :: ds.drop whole

/-- Digits with an exponent: one digit, a point before further ones, and the exponent with its
sign. -/
def placeExponent (ds : List Char) (point : Int) : List Char :=
  let exponent := point - 1
  ds.take 1 ++ (if ds.length ≤ 1 then [] else '.' :: ds.drop 1) ++
    'e' :: (if exponent < 0 then '-' else '+') :: digitsOfNat exponent.natAbs

/-- The size of a finite number. -/
def renderSize (style : FloatStyle) (t : FloatType) (m : Nat) (e : Int) : List Char :=
  if m = 0 then style.placePoint ['0'] 1
  else
    let (c, k) := Shortest.digits t style.tiesUp m e
    let ds := digitsOfNat c
    let point := k + ds.length
    if style.positional t point then style.placePoint ds point else placeExponent ds point

/-- The text of a number of the format `t`. -/
def render (style : FloatStyle) (t : FloatType) : BinaryFloat → List Char
  | .nan => "NaN".toList
  | .infinity false => "inf".toList
  | .infinity true => "-inf".toList
  | .finite negative m e =>
    (if negative then ['-'] else []) ++ style.renderSize t m e

/-- The plain style: never an exponent, no fraction on whole numbers, ties go up. -/
def plain : FloatStyle := ⟨true, fun _ _ => true, false⟩

end FloatStyle

end FilterQuery
