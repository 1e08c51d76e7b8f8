/-
# FilterQuery.Proofs.Value.RoundTrip -- types and values come back from their trees

What a type or a value is written as says all of it (`Json.Denotes`): the text of the tree keeps
every string and number, and the tree is read as the type or the value from which it was made. The
pieces are strings, truth values, integers, and arrays of what is read one by one; a tag with what
it carries is read as that is read (`Value.denotes_carried`).

Values that carry a floating point number, a day or a time are left out (`Value.isDiscrete`); their
texts are no part of this. The text of an identifier could be taken for a row of digits first, which
its hyphens rule out, and is then cut at the hyphens (`Uuid.read?_render`).
-/

import FilterQuery.Proofs.Json.Rereading
import FilterQuery.Value.Codec

namespace FilterQuery

open Text

/-! ## Trees that say all -/

namespace Json

/-- The tree is an object with fields of these names in this order. -/
def HasFields (j : Json) (names : List String) : Prop :=
  ∃ fields, j = .object fields ∧ fields.map (·.1) = names

/-- The text of the tree says all of it, and the tree is read as `a`. -/
structure Denotes {α : Type} (read : Json → Option α) (j : Json) (a : α) : Prop where
  written : j.Written
  read_eq : read j = some a

variable {α β : Type} {read : Json → Option α} {j : Json} {a : α}

/-- What a tree denotes is read from its text. -/
theorem Denotes.reread (h : Denotes read j a) : (read? j.write).bind read = some a := by
  rw [read?_write h.written]
  exact h.read_eq

theorem denotes_string (s : String) : Denotes string? (.string s) s := ⟨.string s, rfl⟩

theorem denotes_bool (b : Bool) : Denotes bool? (.bool b) b := ⟨.bool b, rfl⟩

theorem int?_ofInt (n : Int) : (ofInt n).int? = some n := by
  rw [ofInt_eq]
  unfold int?
  dsimp only
  rw [String.toList_ofList]
  by_cases hn : n < 0
  · rw [integerChars, if_pos hn]
    have hne : n.natAbs ≠ 0 := by omega
    simp only [all_isDigit_digitsOfNat, natOfDigits_digitsOfNat, hne, ne_eq, not_false_eq_true,
      and_self, if_true]
    congr 1
    omega
  · rw [integerChars, if_neg hn]
    split
    · -- a number that is not negative has no sign
      rename_i ds hds
      have hsign := digitsOfNat_append_ne n.natAbs [] ds
      rw [List.append_nil] at hsign
      exact absurd hds hsign
    · simp only [all_isDigit_digitsOfNat, natOfDigits_digitsOfNat, digitsOfNat_ne_nil, ne_eq,
        not_false_eq_true, and_self, if_true]
      congr 1
      omega

theorem denotes_int (n : Int) : Denotes int? (.ofInt n) n := ⟨.int n, int?_ofInt n⟩

/-- An array is read if each of its items is. -/
theorem denotes_array (f : α → Json) (h : ∀ a, Denotes read (f a) a) (as : List α) :
    Denotes (list? read) (.array (as.map f)) as := by
  constructor
  · apply Written.array
    intro v hv
    obtain ⟨a, -, rfl⟩ := List.mem_map.1 hv
    exact (h a).written
  · exact mapM_map_eq_some (fun a => (h a).read_eq) as

end Json

namespace EnumType

theorem denotes_toJson (e : EnumType) : Json.Denotes ofJson? e.toJson e := by
  have hname := Json.denotes_string e.name
  have hvariants := Json.denotes_array Json.string Json.denotes_string e.variants
  constructor
  · apply Json.Written.object
    simp [hname.written, hvariants.written]
  · have hrecord : e.toJson.record? ["name", "variants"] =
      some [some (.string e.name), some (.array (e.variants.map .string))] := rfl
    rw [ofJson?, hrecord]
    simp only [hname.read_eq, hvariants.read_eq]
    rfl

end EnumType

namespace ValueType

theorem denotes_toJson (t : ValueType) : Json.Denotes ofJson? t.toJson t := by
  cases t with
  | int t => cases t <;> exact ⟨.string _, rfl⟩
  | float t => cases t <;> exact ⟨.string _, rfl⟩
  | enum e =>
    have he := e.denotes_toJson
    refine ⟨.object (by simp [he.written]), ?_⟩
    show (EnumType.ofJson? e.toJson).bind _ = _
    rw [he.read_eq]
    rfl
  | entity name => exact ⟨.object (by simp [Json.Written.string]), rfl⟩
  | custom name => exact ⟨.object (by simp [Json.Written.string]), rfl⟩
  | _ => exact ⟨.string _, rfl⟩

/-- A type is a tag, or the only field of an object that has the tag as its name. -/
theorem tagged?_toJson (t : ValueType) : t.toJson.tagged?.isSome = true := by
  cases t <;> rfl

end ValueType

/-! ## Identifiers -/

namespace Uuid

theorem digit?_charOf : ∀ d : Fin 16, digit? (charOf d) = some d := by decide

theorem map_cut {α β : Type} (f : α → β) (ns : List Nat) (xs : List α) :
    (cut ns xs).map (List.map f) = cut ns (xs.map f) := by
  induction ns generalizing xs with
  | nil => rfl
  | cons n ns ih =>
    rw [cut, cut, List.map_cons, ih, List.map_take, List.map_drop]

/-- Groups with hyphens between them come together again. -/
theorem unhyphenate?_intercalate (n : Nat) (ns : List Nat) (cs : List Char)
    (h : cs.length = (n :: ns).foldr (· + ·) 0) :
    unhyphenate? (n :: ns) (List.intercalate ['-'] (cut (n :: ns) cs)) = some cs := by
  induction ns generalizing n cs with
  | nil =>
    have hn : cs.length = n := h
    have htake : cs.take n = cs := List.take_of_length_le (by omega)
    show unhyphenate? [n] (List.intercalate ['-'] [cs.take n]) = some cs
    rw [List.intercalate_singleton, htake, unhyphenate?, if_pos hn]
  | cons m ns ih =>
    have hsum : cs.length = n + (m :: ns).foldr (· + ·) 0 := h
    have hrest := ih m (cs.drop n) (by rw [List.length_drop]; omega)
    have htake : (cs.take n).length = n := by
      rw [List.length_take]
      omega
    have hsplit : List.intercalate ['-'] (cut (n :: m :: ns) cs) =
        cs.take n ++ '-' :: List.intercalate ['-'] (cut (m :: ns) (cs.drop n)) := by
      rw [cut, cut, List.intercalate_cons_cons, List.append_assoc]
      rfl
    rw [hsplit, unhyphenate?]
    · rw [List.drop_left' htake]
      simp only [hrest, Option.map_some]
      rw [List.take_left' htake, List.take_append_drop]
    · intro hnil
      cases hnil

/-- The digits are read from their characters. -/
theorem ofDigits?_map_charOf (u : Uuid) : ofDigits? (u.digits.map charOf) = some u := by
  rw [ofDigits?, mapM_map_eq_some digit?_charOf]
  exact dif_pos u.length_eq

/-- A text with a hyphen is no row of digits. -/
theorem ofDigits?_of_mem {cs : List Char} (h : '-' ∈ cs) : ofDigits? cs = none := by
  have hnone : cs.mapM digit? = none := by
    induction cs with
    | nil => cases h
    | cons c cs ih =>
      rw [List.mapM_cons]
      rcases List.mem_cons.1 h with rfl | h
      · rfl
      · rw [ih h]
        cases digit? c <;> rfl
  rw [ofDigits?, hnone]
  rfl

theorem read?_render (u : Uuid) : read? u.render = some u := by
  have hlength : (u.digits.map charOf).length = groups.foldr (· + ·) 0 := by
    rw [List.length_map, u.length_eq]
    rfl
  have hrender : u.render = List.intercalate ['-'] (cut groups (u.digits.map charOf)) := by
    rw [render, map_cut]
  have hhyphen : '-' ∈ u.render := by
    rw [hrender, groups, cut, cut, List.intercalate_cons_cons]
    exact List.mem_append_left _ (List.mem_append_right _ List.mem_cons_self)
  have hjoined : unhyphenate? groups u.render = some (u.digits.map charOf) := by
    rw [hrender]
    exact unhyphenate?_intercalate 8 [4, 4, 4, 12] _ hlength
  have hread : ofHyphenated? u.render = some u := by
    rw [ofHyphenated?, hjoined]
    exact ofDigits?_map_charOf u
  unfold read?
  rw [ofDigits?_of_mem hhyphen]
  dsimp only
  rw [hread]

end Uuid

/-! ## Values -/

namespace Value

/-- Whether the value carries neither a floating point number nor a day or a time. -/
def isDiscrete : Value → Bool
  | float _ _ | date _ | time _ | dateTime _ | offsetDateTime _ => false
  | _ => true

/-- A tag with what it carries is read as this if that is read. -/
theorem denotes_carried {tag : String} {j : Json} {v : Value} (hj : j.Written)
    (htag : tag ≠ "Null") (h : ofCarried? tag j = some v) :
    Json.Denotes ofJson? (.object [(tag, j)]) v := by
  refine ⟨.object (by simp [hj]), ?_⟩
  unfold ofJson? Json.tagged?
  dsimp only
  split
  · rename_i heq
    cases heq
    exact absurd rfl htag
  · rename_i heq
    cases heq
    exact h
  · rename_i hother
    exact absurd rfl (hother tag j)

/-- Two texts under different names are read as they were written. -/
theorem twoTexts?_object {first second : String} (h : first ≠ second) (a b : String) :
    twoTexts? first second (.object [(first, .string a), (second, .string b)]) = some (a, b) := by
  have hrecord : (Json.object [(first, .string a), (second, .string b)]).record? [first, second] =
      some [some (.string a), some (.string b)] := by
    simp [Json.record?, Json.uniqueField, Json.fieldValues, h, h.symm]
  rw [twoTexts?, hrecord]
  rfl

/-- A value is a tag, or the only field of an object that has the tag as its name. -/
theorem tagged?_toJson (v : Value) : v.toJson.tagged?.isSome = true := by
  cases v <;> rfl

theorem denotes_toJson {v : Value} (h : v.isDiscrete = true) : Json.Denotes ofJson? v.toJson v := by
  cases v with
  | null => exact ⟨.string _, rfl⟩
  | bool b => exact denotes_carried (.bool b) (by decide) rfl
  | int n =>
    have hn : Integer.ofInt? n.type n.val = some n := dif_pos ⟨n.least_le, n.le_greatest⟩
    have hint := Json.denotes_int n.val
    apply denotes_carried hint.written
    · cases n.type <;> decide
    · -- no tag of an integer type is one of the tags that are tried before
      have hcarried : ofCarried? n.type.tag (.ofInt n.val) =
          (Json.ofInt n.val).int?.bind fun m =>
            (Integer.ofInt? n.type m).bind fun k => some (int k) := by
        cases n.type <;> rfl
      rw [hcarried, hint.read_eq, Option.bind_some, hn]
      rfl
  | char c =>
    apply denotes_carried (.string _) (by decide)
    show (ofCarried?.readOne (String.ofList [c])).bind _ = some (char c)
    rw [ofCarried?.readOne, String.toList_ofList]
    rfl
  | string s => exact denotes_carried (.string s) (by decide) rfl
  | uuid u =>
    apply denotes_carried (.string _) (by decide)
    show (Uuid.read? (String.ofList u.render).toList).bind _ = some (uuid u)
    rw [String.toList_ofList, u.read?_render]
    rfl
  | enum typeName variant =>
    have htexts := twoTexts?_object (show "type_name" ≠ "variant" by decide) typeName variant
    apply denotes_carried (.object (by simp [Json.Written.string])) (by decide)
    simp only [ofCarried?, htexts, Option.map_some]
  | custom typeName value =>
    have htexts := twoTexts?_object (show "type_name" ≠ "value" by decide) typeName value
    apply denotes_carried (.object (by simp [Json.Written.string])) (by decide)
    simp only [ofCarried?, htexts, Option.map_some]
  | float | date | time | dateTime | offsetDateTime => cases h

end Value

end FilterQuery
