/-
# FilterQuery.Value.Uuid -- universally unique identifiers

An identifier is a row of 32 hexadecimal digits. It is written in lower case in five groups with
hyphens between them. It is read from that form, from the same form in braces or behind
`urn:uuid:`, and from the digits alone; letters count in both cases.
-/

namespace FilterQuery

/-- An identifier of 128 bits, as hexadecimal digits, the most significant first. -/
structure Uuid where
  digits : List (Fin 16)
  length_eq : digits.length = 32
  deriving Repr, DecidableEq

namespace Uuid

/-- The value of a hexadecimal digit. -/
def digit? (c : Char) : Option (Fin 16) :=
  if '0' ≤ c ∧ c ≤ '9' then some (Fin.ofNat 16 (c.toNat - '0'.toNat))
  else if 'a' ≤ c ∧ c ≤ 'f' then some (Fin.ofNat 16 (c.toNat - 'a'.toNat + 10))
  else if 'A' ≤ c ∧ c ≤ 'F' then some (Fin.ofNat 16 (c.toNat - 'A'.toNat + 10))
  else none

/-- The lower case character of a hexadecimal digit. -/
def charOf (d : Fin 16) : Char :=
  if d.val < 10 then Char.ofNat ('0'.toNat + d.val) else Char.ofNat ('a'.toNat + (d.val - 10))

/-- The lengths of the groups. -/
def groups : List Nat := [8, 4, 4, 4, 12]

/-- Cuts a row into pieces of the given lengths; what is left over is dropped. -/
def cut {α : Type} : List Nat → List α → List (List α)
  | [], _ => []
  | n :: ns, xs => xs.take n :: cut ns (xs.drop n)

/-- The hyphenated form. -/
def render (u : Uuid) : List Char :=
  List.intercalate ['-'] ((cut groups u.digits).map fun g => g.map charOf)

/-- The identifier with the given digits. -/
def ofDigits? (cs : List Char) : Option Uuid := do
  let ds ← cs.mapM digit?
  if h : ds.length = 32 then some ⟨ds, h⟩ else none

/-- The digits of the hyphenated form, if the hyphens stand where they must. -/
def unhyphenate? : List Nat → List Char → Option (List Char)
  | [], _ => none
  | [n], cs => if cs.length = n then some cs else none
  | n :: ns, cs =>
    match cs.drop n with
    | '-' :: r => (unhyphenate? ns r).map (cs.take n ++ ·)
    | _ => none

/-- Reads the hyphenated form. -/
def ofHyphenated? (cs : List Char) : Option Uuid := do
  ofDigits? (← unhyphenate? groups cs)

/-- The prefix of the form as a resource name. -/
def urn : List Char := "urn:uuid:".toList

/-- Reads one of the forms. -/
def read? (cs : List Char) : Option Uuid :=
  match ofDigits? cs with
  | some u => some u
  | none =>
    match ofHyphenated? cs with
    | some u => some u
    | none =>
      if (cs.take urn.length).map Char.toLower = urn then ofHyphenated? (cs.drop urn.length)
      else
        match cs with
        | '\x7b' :: r =>
          if r.getLast? = some '\x7d' then ofHyphenated? r.dropLast else none
        | _ => none

end Uuid

end FilterQuery
