/-
# FilterQuery.Value.Integer -- integers of a fixed range

The eight integer types have 8 to 64 bits, with or without a sign. An `Integer` carries its type
and the proof that its value is in the range of the type, so no operation can wrap.
-/

import FilterQuery.Text.Reader

namespace FilterQuery

open Text

/-- The integer types. -/
inductive IntType where
  | i8 | i16 | i32 | i64 | u8 | u16 | u32 | u64
  deriving Repr, DecidableEq

namespace IntType

/-- The number of bits. -/
def bits : IntType → Nat
  | i8 | u8 => 8
  | i16 | u16 => 16
  | i32 | u32 => 32
  | i64 | u64 => 64

/-- Whether the type has negative numbers. -/
def signed : IntType → Bool
  | i8 | i16 | i32 | i64 => true
  | u8 | u16 | u32 | u64 => false

/-- The least number of the type. -/
def least (t : IntType) : Int := if t.signed then -(Nat.pow 2 (t.bits - 1) : Nat) else 0

/-- The greatest number of the type. -/
def greatest (t : IntType) : Int :=
  (Nat.pow 2 (if t.signed then t.bits - 1 else t.bits) - 1 : Nat)

/-- The name of the type in messages. -/
def name : IntType → String
  | i8 => "i8" | i16 => "i16" | i32 => "i32" | i64 => "i64"
  | u8 => "u8" | u16 => "u16" | u32 => "u32" | u64 => "u64"

/-- All integer types. -/
def all : List IntType := [i8, i16, i32, i64, u8, u16, u32, u64]

end IntType

/-- A number of an integer type. -/
structure Integer where
  type : IntType
  val : Int
  least_le : type.least ≤ val
  le_greatest : val ≤ type.greatest
  deriving Repr, DecidableEq

namespace Integer

/-- The number `n` in the type `t`, if that holds it. -/
def ofInt? (t : IntType) (n : Int) : Option Integer :=
  if h : t.least ≤ n ∧ n ≤ t.greatest then some ⟨t, n, h.1, h.2⟩ else none

/-- The number in another type, if that holds it. -/
def cast? (t : IntType) (n : Integer) : Option Integer := ofInt? t n.val

/-- The number that digits write; there must be one. -/
def magnitude? (cs : List Char) : Option Nat :=
  if !cs.isEmpty && cs.all isDigit then some (natOfDigits cs) else none

/-- The number that a text writes in the type `t`: a sign that the type admits, then digits. -/
def read? (t : IntType) : List Char → Option Integer
  | '+' :: r => do ofInt? t (← magnitude? r)
  | '-' :: r => if t.signed then do ofInt? t (-(← magnitude? r)) else none
  | r => do ofInt? t (← magnitude? r)

/-- The decimal digits, with a sign in front of a negative number. -/
def render (n : Integer) : List Char :=
  if n.val < 0 then '-' :: digitsOfNat n.val.natAbs else digitsOfNat n.val.natAbs

end Integer

end FilterQuery
