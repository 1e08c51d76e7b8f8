/-
# FilterQuery.Code.Index -- fields known by their place

The fields of a record without names are known by their places. A place may be written in any base
and with underscores between its digits; it stands for a number, and is shown as that number in
decimal digits. Two places with a point between them make a number with a fraction.
-/

import FilterQuery.Code.Reader

namespace FilterQuery.Code

/-- The digit that a character is in a base. -/
def digit? (base : Nat) (c : Char) : Option Nat :=
  let n :=
    if '0' ≤ c ∧ c ≤ '9' then c.toNat - '0'.toNat
    else if 'a' ≤ c ∧ c ≤ 'f' then c.toNat - 'a'.toNat + 10
    else if 'A' ≤ c ∧ c ≤ 'F' then c.toNat - 'A'.toNat + 10
    else base
  if n < base then some n else none

/-- The number that digits write in a base. Underscores are passed over. -/
def digitsValue? (base : Nat) (cs : List Char) : Option Nat :=
  match cs.filter (· != '_') with
  | [] => none
  | ds => ds.foldlM (fun n c => (digit? base c).map (base * n + ·)) 0

/-- The place that a number stands for: one of 32 bits. -/
def indexValue? (cs : List Char) : Option Nat :=
  let n? := match cs with
    | '0' :: 'x' :: ds => digitsValue? 16 ds
    | '0' :: 'o' :: ds => digitsValue? 8 ds
    | '0' :: 'b' :: ds => digitsValue? 2 ds
    | ds => digitsValue? 10 ds
  n?.filter (· < 4294967296)

/-- The decimal text of the place that a number stands for. -/
def indexText? (s : String) : Option String :=
  (indexValue? s.toList).map fun n => String.ofList (Nat.toDigits 10 n)

example : indexText? "0x1F" = some "31" ∧ indexText? "1_0" = some "10" ∧
    indexText? "1u8" = none := by
  decide +kernel

/-- A place. -/
def index : Reader String := fun
  | .leaf (.literal s) :: r => (indexText? s).map fun t => (t, r)
  | _ => none

/-- Places with points between them. A point may stand behind the last. -/
def indices : Reader String := fun
  | .leaf (.literal s) :: r => do
    let places ← (s.splitOn ".").mapM fun t => if t = "" then some "" else indexText? t
    return (".".intercalate places, r)
  | _ => none

end FilterQuery.Code
