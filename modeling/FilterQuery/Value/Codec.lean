/-
# FilterQuery.Value.Codec -- the JSON form of types and values

Types and values are tagged: a tag that carries nothing is a string, one that carries something is
the name of the only field of an object. Records are objects, written with their fields in the
order of declaration and read in any order; fields of other names are passed over. The array of
all its values is also read as a record.

Integers are read only in the range of their type and only when they are written without point
and exponent. Date-times with an offset are written with `Z` at UTC and read loosely spaced.

Floating point numbers are read as follows. The digits, the point left out, are taken as long as
they make up a number of 64 bits; the number is rounded to double precision and then multiplied
or divided by a power of ten, which rounds again. A number that becomes infinite is refused.
-/

import FilterQuery.Calendar.Item
import FilterQuery.Json
import FilterQuery.Value

namespace FilterQuery

open Text

/-! ## Floating point numbers -/

namespace BinaryFloat

/-- The product of two numbers, rounded to double precision; of other than finite numbers no
number. -/
def mul : BinaryFloat → BinaryFloat → BinaryFloat
  | finite s m e, finite t n f =>
    let (a, b) := ratio m e
    let (c, d) := ratio n f
    round .f64 (s != t) (a * c) (b * d)
  | _, _ => nan

/-- The quotient of two numbers, rounded to double precision; of other than finite numbers no
number. -/
def div : BinaryFloat → BinaryFloat → BinaryFloat
  | finite s m e, finite t n f =>
    let (a, b) := ratio m e
    let (c, d) := ratio n f
    round .f64 (s != t) (a * d) (b * c)
  | _, _ => nan

/-- The power of ten with the given exponent, rounded to double precision. -/
def powerOfTen (k : Nat) : BinaryFloat := ofDecimal .f64 false ⟨['1'], k⟩

/-- Whether a number is zero. -/
def isZero : BinaryFloat → Bool
  | finite _ m _ => m == 0
  | _ => false

/-- Whether a number is finite. -/
def isFinite : BinaryFloat → Bool
  | finite _ _ _ => true
  | _ => false

/-- The greatest power of ten that is used in one step. -/
def greatestPower : Nat := 308

theorem greatestPower_pos : 0 < greatestPower := by decide

/-- A number divided by a power of ten. A greater power than the greatest is divided by in several
steps, as long as the number is not zero. -/
def divPower (x : BinaryFloat) (k : Nat) : BinaryFloat :=
  if greatestPower < k then
    if x.isZero then x else divPower (x.div (powerOfTen greatestPower)) (k - greatestPower)
  else x.div (powerOfTen k)
termination_by k
decreasing_by
  have := greatestPower_pos
  omega

/-- A number times a power of ten with an exponent of either sign, if that is finite. -/
def timesPower? (x : BinaryFloat) (k : Int) : Option BinaryFloat :=
  if k < 0 then some (x.divPower (-k).toNat)
  else if greatestPower < k then if x.isZero then some x else none
  else
    let y := x.mul (powerOfTen k.toNat)
    if y.isFinite then some y else none

/-- The digits of a number as long as 64 bits hold what they make up, and how many are left. -/
def foldDigits (n : Nat) : List Char → Nat × Nat
  | [] => (n, 0)
  | d :: r =>
    let m := 10 * n + (d.toNat - '0'.toNat)
    if m < Nat.pow 2 64 then foldDigits m r else (n, r.length + 1)

/-- The parts of a number as it is written in JSON: a minus sign, the digits before the point and
behind it, and an exponent, if there is one. -/
structure Numeral where
  negative : Bool
  whole : List Char
  fraction : List Char
  exponent : Option Int

/-- The parts of a JSON number. -/
def numeral? (text : List Char) : Option Numeral :=
  let (negative, cs) := match text with
    | '-' :: r => (true, r)
    | r => (false, r)
  let whole := cs.takeWhile isDigit
  let (fraction, cs) := match cs.dropWhile isDigit with
    | '.' :: r => (r.takeWhile isDigit, r.dropWhile isDigit)
    | r => ([], r)
  if cs = [] then some ⟨negative, whole, fraction, none⟩
  else (exponentPart.readAll (String.ofList cs)).map fun k => ⟨negative, whole, fraction, some k⟩

/-- The greatest size of an exponent that is worked out. -/
def exponentLimit : Nat := Nat.pow 2 31 - 1

/-- The size of a number with point or exponent in double precision, if it is finite. -/
def double? (n : Numeral) : Option BinaryFloat :=
  let (significand, dropped) := foldDigits 0 n.whole
  let (significand, left) := foldDigits significand n.fraction
  let scale : Int := dropped - ((n.fraction.length - left : Nat) : Int)
  let exponent := n.exponent.getD 0
  if exponentLimit < exponent.natAbs then
    if significand ≠ 0 ∧ 0 < exponent then none else some (ofInt .f64 0)
  else (ofInt .f64 significand).timesPower? (scale + exponent)

/-- Whether a number has neither point nor exponent and 64 bits hold it: without a sign, or with
one if it is negative. -/
def isWhole (n : Numeral) : Bool :=
  let size := natOfDigits n.whole
  n.fraction.isEmpty && n.exponent.isNone &&
    (if n.negative then 0 < size && size ≤ Nat.pow 2 63 else size < Nat.pow 2 64)

/-- The number of `t` that a JSON number stands for. -/
def ofNumeral? (t : FloatType) (n : Numeral) : Option BinaryFloat :=
  if isWhole n then
    let size : Int := natOfDigits n.whole
    some (ofInt t (if n.negative then -size else size))
  else (double? n).map fun x => (if n.negative then x.negate else x).cast t

/-- The number of `t` that a JSON tree stands for. -/
def ofJson? (t : FloatType) : Json → Option BinaryFloat
  | .number text => (numeral? text.toList).bind (ofNumeral? t)
  | _ => none

/-- JSON numbers have an exponent unless the point is near their digits, whole numbers have a
fraction, and ties go to the even digit. -/
def jsonStyle : FloatStyle where
  tiesUp := false
  positional t point :=
    match t with
    | .f64 => -5 < point ∧ point ≤ 16
    | .f32 => -6 < point ∧ point ≤ 13
  wholeFraction := true

/-- A number of `t`; `null` if it is not finite. -/
def toJson (t : FloatType) : BinaryFloat → Json
  | finite s m e => .number (String.ofList (jsonStyle.render t (finite s m e)))
  | _ => .null

end BinaryFloat

/-! ## Types -/

/-- The tag of an integer type. -/
def IntType.tag : IntType → String
  | i8 => "I8" | i16 => "I16" | i32 => "I32" | i64 => "I64"
  | u8 => "U8" | u16 => "U16" | u32 => "U32" | u64 => "U64"

/-- The integer type with a tag. -/
def IntType.ofTag? (tag : String) : Option IntType := IntType.all.find? (·.tag == tag)

/-- The tag of a floating point format. -/
def FloatType.tag : FloatType → String
  | f32 => "F32"
  | f64 => "F64"

/-- The format with a tag. -/
def FloatType.ofTag? (tag : String) : Option FloatType :=
  [FloatType.f32, .f64].find? (·.tag == tag)

namespace EnumType

/-- The record of an enumeration. -/
def toJson (e : EnumType) : Json :=
  .object [("name", .string e.name), ("variants", .array (e.variants.map .string))]

/-- Reads the record of an enumeration. -/
def ofJson? (j : Json) : Option EnumType :=
  match j.record? ["name", "variants"] with
  | some [some name, some variants] => do
    return ⟨← name.string?, ← variants.list? Json.string?⟩
  | _ => none

end EnumType

namespace ValueType

/-- The tagged form of a type. -/
def toJson : ValueType → Json
  | bool => .string "Bool"
  | int t => .string t.tag
  | float t => .string t.tag
  | char => .string "Char"
  | string => .string "String"
  | uuid => .string "Uuid"
  | date => .string "Date"
  | time => .string "Time"
  | dateTime => .string "DateTime"
  | offsetDateTime => .string "OffsetDateTime"
  | enum e => .object [("Enum", e.toJson)]
  | entity name => .object [("Entity", .string name)]
  | custom name => .object [("Custom", .string name)]

/-- The type with a tag that carries nothing. -/
def ofTag? (tag : String) : Option ValueType :=
  match tag with
  | "Bool" => some bool
  | "Char" => some char
  | "String" => some string
  | "Uuid" => some uuid
  | "Date" => some date
  | "Time" => some time
  | "DateTime" => some dateTime
  | "OffsetDateTime" => some offsetDateTime
  | _ =>
    match IntType.ofTag? tag, FloatType.ofTag? tag with
    | some t, _ => some (int t)
    | none, some t => some (float t)
    | none, none => none

/-- Reads the tagged form of a type. -/
def ofJson? (j : Json) : Option ValueType :=
  match j.tagged? with
  | some ("Enum", carried) => do return enum (← EnumType.ofJson? (← carried))
  | some ("Entity", carried) => do return entity (← (← carried).string?)
  | some ("Custom", carried) => do return custom (← (← carried).string?)
  | some (tag, carried) => if Json.carriesNothing carried then ofTag? tag else none
  | none => none

end ValueType

/-! ## Values -/

namespace Value

/-- The tagged form of a value. -/
def toJson : Value → Json
  | null => .string "Null"
  | bool b => .object [("Bool", .bool b)]
  | int n => .object [(n.type.tag, .ofInt n.val)]
  | float t x => .object [(t.tag, x.toJson t)]
  | char c => .object [("Char", .string (String.ofList [c]))]
  | string s => .object [("String", .string s)]
  | uuid u => .object [("Uuid", .string (String.ofList u.render))]
  | date d => .object [("Date", .string (String.ofList d.render))]
  | time t => .object [("Time", .string (String.ofList t.render))]
  | dateTime dt => .object [("DateTime", .string (String.ofList dt.render))]
  | offsetDateTime dt => .object [("OffsetDateTime", .string (String.ofList dt.renderZulu))]
  | enum typeName variant =>
    .object [("Enum", .object [("type_name", .string typeName), ("variant", .string variant)])]
  | custom typeName value =>
    .object [("Custom", .object [("type_name", .string typeName), ("value", .string value)])]

/-- Reads a record of two texts. -/
def twoTexts? (first second : String) (j : Json) : Option (String × String) :=
  match j.record? [first, second] with
  | some [some a, some b] => do return (← a.string?, ← b.string?)
  | _ => none

/-- Reads what a tag carries. -/
def ofCarried? (tag : String) (j : Json) : Option Value :=
  match tag with
  | "Bool" => j.bool?.map bool
  | "Char" => do return char (← readOne (← j.string?))
  | "String" => j.string?.map string
  | "Uuid" => do return uuid (← Uuid.read? (← j.string?).toList)
  | "Date" => do return date (← Item.date? (← j.string?))
  | "Time" => do return time (← Item.time? (← j.string?))
  | "DateTime" => do return dateTime (← Item.dateTime? (← j.string?))
  | "OffsetDateTime" => do return offsetDateTime (← Item.offsetDateTime? (← j.string?))
  | "Enum" => (twoTexts? "type_name" "variant" j).map fun (t, v) => enum t v
  | "Custom" => (twoTexts? "type_name" "value" j).map fun (t, v) => custom t v
  | _ =>
    match IntType.ofTag? tag, FloatType.ofTag? tag with
    | some t, _ => do return int (← Integer.ofInt? t (← j.int?))
    | none, some t => do return float t (← BinaryFloat.ofJson? t j)
    | none, none => none
where
  readOne (s : String) : Option Char :=
    match s.toList with
    | [c] => some c
    | _ => none

/-- Reads the tagged form of a value. -/
def ofJson? (j : Json) : Option Value :=
  match j.tagged? with
  | some ("Null", carried) => if Json.carriesNothing carried then some null else none
  | some (tag, some carried) => ofCarried? tag carried
  | _ => none

end Value

end FilterQuery
