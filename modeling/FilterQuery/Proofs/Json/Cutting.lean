/-
# FilterQuery.Proofs.Json.Cutting -- the marks of a written tree

The text of a tree is cut into the marks that the tree is made of (`Json.Written.cut`). Each kind of
mark is read from the front of a text with anything behind it; of what is behind a number it matters
that it does not go on with the number, and behind a value of a tree there is nothing or one of the
three characters that can stand there (`Json.Follows`).

This holds of trees whose text says all of them (`Json.Written`): each number is an integer in its
usual digits, and no string is left out for being half a pair. A string is read back as it was,
whatever its characters are. A control character goes the way through an escape, some of them by
their number, and a number below `0x20` is never half a pair (`Json.assemble_unitOf`).
-/

import FilterQuery.Json.Reader
import FilterQuery.Proofs.Text.Digits
import Mathlib.Data.List.Basic
import Mathlib.Data.List.TakeWhile

namespace FilterQuery

open Text

namespace Json

/-! ## Strings -/

/-- The part of a string as which a character is read back. Most control characters are escaped by
their number. -/
def unitOf (c : Char) : Unit16 :=
  if c.toNat < 0x20 ∧ c ∉ ['\x08', '\t', '\n', '\x0c', '\r'] then .code c.toNat else .char c

theorem hexNumber?_control : ∀ n < 0x20,
    hexNumber? '0' '0' (hexDigit (n / 16)) (hexDigit (n % 16)) = some n := by
  decide

/-- How a character is written: by an escape of one letter, by its number, or as it is. -/
theorem escapeChar_cases (c : Char) :
    (∃ e, escapeChar c = ['\\', e] ∧ e ≠ 'u' ∧ unescape? e = some c ∧ unitOf c = .char c) ∨
      (escapeChar c =
          ['\\', 'u', '0', '0', hexDigit (c.toNat / 16), hexDigit (c.toNat % 16)] ∧
        c.toNat < 0x20 ∧ unitOf c = .code c.toNat) ∨
      (escapeChar c = [c] ∧ c ≠ '"' ∧ c ≠ '\\' ∧ ¬c.toNat < 0x20 ∧ unitOf c = .char c) := by
  generalize hchars : escapeChar c = chars
  unfold escapeChar at hchars
  iterate 7
    split at hchars
    · subst_vars
      exact .inl ⟨_, rfl, by decide, rfl, if_neg (by decide)⟩
  split at hchars
  · rename_i hcontrol
    refine .inr (.inl ⟨hchars.symm, hcontrol, ?_⟩)
    simp_all [unitOf]
  · rename_i hquote hback _ _ _ _ _ hplain
    refine .inr (.inr ⟨hchars.symm, hquote, hback, hplain, ?_⟩)
    simp [unitOf, hplain]

/-- A character is read back from what it is written as. -/
theorem stringUnits_escapeChar (c : Char) {cs rest : List Char} {us : List Unit16}
    (h : stringUnits cs = some (us, rest)) :
    stringUnits (escapeChar c ++ cs) = some (unitOf c :: us, rest) := by
  rcases escapeChar_cases c with
    ⟨e, hescape, hu, he, hunit⟩ | ⟨hescape, hcontrol, hunit⟩ | ⟨hescape, hq, hb, hplain, hunit⟩
  · -- the letter is not the one that announces a number
    rw [hescape, hunit]
    show stringUnits ('\\' :: e :: cs) = _
    rw [stringUnits]
    · rw [he, h]
    · intro _ _ _ _ _ heq
      exact absurd heq hu
  · have hhex := hexNumber?_control c.toNat hcontrol
    rw [hescape, hunit]
    simp only [List.cons_append, List.nil_append, stringUnits, hhex, h]
  · rw [hescape, hunit]
    show stringUnits (c :: cs) = _
    rw [stringUnits, if_neg hplain, h]
    · rfl
    · exact hq
    · intro _ _ _ _ _ heq
      exact absurd heq hb
    · intro _ _ heq
      exact absurd heq hb

/-- The parts of a written string, and what follows it. -/
theorem stringUnits_flatMap (cs rest : List Char) :
    stringUnits (cs.flatMap escapeChar ++ '"' :: rest) = some (cs.map unitOf, rest) := by
  induction cs with
  | nil => rfl
  | cons c cs ih =>
    rw [List.flatMap_cons, List.append_assoc]
    exact stringUnits_escapeChar c ih

/-- A code unit that is half of no pair is a character by itself. -/
theorem assemble_code {n : Nat} (hhigh : isHighHalf n = false) (hlow : isLowHalf n = false)
    (us : List Unit16) : assemble (.code n :: us) = (assemble us).map (Char.ofNat n :: ·) := by
  rcases us with _ | ⟨c | m, us⟩ <;> simp [assemble, hhigh, hlow]

theorem assemble_unitOf (c : Char) (us : List Unit16) :
    assemble (unitOf c :: us) = (assemble us).map (c :: ·) := by
  unfold unitOf
  split
  · -- a control character, and so far below the halves of pairs
    rename_i hcontrol
    have hhigh : isHighHalf c.toNat = false := by
      simp only [isHighHalf, Bool.and_eq_false_iff, decide_eq_false_iff_not]
      omega
    have hlow : isLowHalf c.toNat = false := by
      simp only [isLowHalf, Bool.and_eq_false_iff, decide_eq_false_iff_not]
      omega
    rw [assemble_code hhigh hlow, Char.ofNat_toNat]
  · rfl

/-- The characters of a string come together again. -/
theorem assemble_map_unitOf (cs : List Char) : assemble (cs.map unitOf) = some cs := by
  induction cs with
  | nil => rfl
  | cons c cs ih =>
    rw [List.map_cons, assemble_unitOf, ih]
    rfl

/-! ## Numbers -/

/-- The characters of an integer. -/
def integerChars (n : Int) : List Char :=
  if n < 0 then '-' :: digitsOfNat n.natAbs else digitsOfNat n.natAbs

theorem ofInt_eq (n : Int) : ofInt n = .number (String.ofList (integerChars n)) := rfl

/-- What can stand behind a value: nothing, or what ends an item, an array or an object. -/
def Follows (rest : List Char) : Prop := ∀ c ∈ rest.head?, c = ',' ∨ c = ']' ∨ c = '\x7d'

theorem Follows.nil : Follows [] := by
  intro c hc
  cases hc

/-- What follows is nothing, or it begins with one of three characters. -/
theorem Follows.cases {rest : List Char} (h : Follows rest) :
    rest = [] ∨ ∃ c r, rest = c :: r ∧ (c = ',' ∨ c = ']' ∨ c = '\x7d') := by
  cases rest with
  | nil => exact .inl rfl
  | cons c r => exact .inr ⟨c, r, rfl, h c rfl⟩

theorem takeWhile_isDigit (n : Nat) {rest : List Char} (hrest : Follows rest) :
    (digitsOfNat n ++ rest).takeWhile isDigit = digitsOfNat n := by
  have hnone : rest.takeWhile isDigit = [] := by
    rcases hrest.cases with rfl | ⟨c, r, rfl, rfl | rfl | rfl⟩ <;> rfl
  rw [List.takeWhile_append_of_pos fun c hc => isDigit_of_mem_digitsOfNat hc, hnone,
    List.append_nil]

theorem dropWhile_isDigit (n : Nat) {rest : List Char} (hrest : Follows rest) :
    (digitsOfNat n ++ rest).dropWhile isDigit = rest := by
  rw [List.dropWhile_append_of_pos fun c hc => isDigit_of_mem_digitsOfNat hc]
  rcases hrest.cases with rfl | ⟨c, r, rfl, rfl | rfl | rfl⟩ <;> rfl

/-- The digits of a number are the whole part of a number. -/
theorem digitsOfNat_whole (n : Nat) :
    ¬(digitsOfNat n = [] ∨
      ((digitsOfNat n).head? = some '0' ∧ (digitsOfNat n).length ≠ 1)) := by
  rintro (hnil | ⟨hhead, hlength⟩)
  · exact digitsOfNat_ne_nil n hnil
  · rcases Nat.eq_zero_or_pos n with rfl | hn
    · exact hlength rfl
    · exact head?_digitsOfNat hn hhead

/-- An integer is read from the front of a text when the text does not go on with it. -/
theorem numberText_integerChars (n : Int) {rest : List Char} (hrest : Follows rest) :
    numberText (integerChars n ++ rest) = some (integerChars n, rest) := by
  have htake := takeWhile_isDigit n.natAbs hrest
  have hdrop := dropWhile_isDigit n.natAbs hrest
  have hwhole := digitsOfNat_whole n.natAbs
  unfold integerChars
  split
  · rw [List.cons_append]
    simp only [numberText, htake, hdrop, if_neg hwhole]
    -- neither a point nor an exponent stands behind the digits
    rcases hrest.cases with rfl | ⟨c, r, rfl, rfl | rfl | rfl⟩ <;> simp
  · unfold numberText
    split
    rename_i sign cs hsplit
    split at hsplit
    · rename_i r hr
      exact absurd hr (digitsOfNat_append_ne n.natAbs rest r)
    · cases hsplit
      simp only [htake, hdrop, if_neg hwhole]
      rcases hrest.cases with rfl | ⟨c, r, rfl, rfl | rfl | rfl⟩ <;> simp

/-- An integer begins with a sign or a digit. -/
theorem exists_integerChars_eq (n : Int) :
    ∃ c cs, integerChars n = c :: cs ∧ (c = '-' ∨ isDigit c = true) := by
  unfold integerChars
  split
  · exact ⟨'-', _, rfl, .inl rfl⟩
  · obtain ⟨d, ds, hds⟩ := List.exists_cons_of_ne_nil (digitsOfNat_ne_nil n.natAbs)
    refine ⟨d, ds, hds, .inr ?_⟩
    apply isDigit_of_mem_digitsOfNat (n := n.natAbs)
    rw [hds]
    exact List.mem_cons_self

theorem isSpace_of_isDigit {c : Char} (h : isDigit c = true) : isSpace c = false := by
  rw [← Bool.not_eq_true]
  intro hspace
  simp only [isSpace, Bool.or_eq_true, beq_iff_eq] at hspace
  rcases hspace with ((rfl | rfl) | rfl) | rfl <;> exact absurd h (by decide)

/-! ## Marks -/

theorem mark?_string (s : String) (rest : List Char) :
    mark? (writeString s ++ rest) = some (.value (.string s), rest) := by
  have hunits := stringUnits_flatMap s.toList rest
  simp only [writeString, List.cons_append, List.append_assoc, List.nil_append, mark?, hunits,
    Option.map_some, assemble_map_unitOf, String.ofList_toList]

theorem mark?_ofInt (n : Int) {rest : List Char} (hrest : Follows rest) :
    mark? (integerChars n ++ rest) = some (.value (.ofInt n), rest) := by
  have hnumber := numberText_integerChars n hrest
  obtain ⟨c, cs, hchars, hc⟩ := exists_integerChars_eq n
  rw [hchars, List.cons_append] at hnumber ⊢
  unfold mark?
  split
  case h_11 =>
    rw [hnumber, ofInt_eq, hchars]
    rfl
  all_goals
    -- each other kind of mark begins with a character of its own
    rename_i heq
    obtain ⟨rfl, -⟩ := List.cons.inj heq
    exact absurd hc (by decide)

/-- The text is cut into the marks, with any fuel that suffices for its characters. -/
def Cut (cs : List Char) (ks : List Mark) : Prop :=
  ∀ fuel, cs.length ≤ fuel → Json.marks fuel cs = some ks

theorem Cut.nil : Cut [] [] := by
  intro fuel _
  cases fuel <;> rfl

/-- A mark that is read from the front of a text is its first. -/
theorem Cut.cons {c : Char} {t rest : List Char} {m : Mark} {ks : List Mark}
    (hc : isSpace c = false) (hm : mark? (c :: t ++ rest) = some (m, rest)) (h : Cut rest ks) :
    Cut (c :: t ++ rest) (m :: ks) := by
  intro fuel hfuel
  obtain _ | fuel := fuel
  · simp at hfuel
  · have hdrop : (c :: t ++ rest).dropWhile isSpace = c :: t ++ rest :=
      List.dropWhile_cons_of_neg (by simp [hc])
    have hrest : rest.length ≤ fuel := by
      simp only [List.length_append, List.length_cons] at hfuel
      omega
    unfold Json.marks
    rw [hdrop]
    simp only [List.cons_append] at hm ⊢
    simp only [hm, h fuel hrest, Option.map_some]

/-! ## Trees -/

mutual

/-- The marks of a tree. -/
def toMarks : Json → List Mark
  | array [] => [.beginArray, .endArray]
  | array (v :: r) => .beginArray :: toMarks v ++ itemMarks r ++ [.endArray]
  | object [] => [.beginObject, .endObject]
  | object ((k, v) :: r) =>
    .beginObject :: .value (.string k) :: .colon :: toMarks v ++ fieldMarks r ++ [.endObject]
  | v => [.value v]

/-- The marks of further items, a comma before each. -/
def itemMarks : List Json → List Mark
  | [] => []
  | v :: r => .comma :: toMarks v ++ itemMarks r

/-- The marks of further fields, a comma before each. -/
def fieldMarks : List (String × Json) → List Mark
  | [] => []
  | (k, v) :: r => .comma :: .value (.string k) :: .colon :: toMarks v ++ fieldMarks r

end

/-- The text of the tree says all of it. -/
inductive Written : Json → Prop
  | null : Written .null
  | bool (b : Bool) : Written (.bool b)
  | int (n : Int) : Written (.ofInt n)
  | string (s : String) : Written (.string s)
  | array {items : List Json} : (∀ v ∈ items, Written v) → Written (.array items)
  | object {fields : List (String × Json)} :
    (∀ f ∈ fields, Written f.2) → Written (.object fields)

/-- The text of a tree is cut into its marks, whatever can stand behind it. -/
def Cuts (v : Json) : Prop :=
  ∀ rest ks, Follows rest → Cut rest ks → Cut (v.chars ++ rest) (v.toMarks ++ ks)

theorem follows_itemChars (items : List Json) (rest : List Char) :
    Follows (itemChars items ++ ']' :: rest) := by
  intro c hc
  cases items with
  | nil => exact .inr (.inl (Option.some.inj hc).symm)
  | cons v r => exact .inl (Option.some.inj hc).symm

theorem follows_fieldChars (fields : List (String × Json)) (rest : List Char) :
    Follows (fieldChars fields ++ '\x7d' :: rest) := by
  intro c hc
  cases fields with
  | nil => exact .inr (.inr (Option.some.inj hc).symm)
  | cons f r => exact .inl (Option.some.inj hc).symm

theorem cut_itemChars {items : List Json} (h : ∀ v ∈ items, v.Cuts) {rest : List Char}
    {ks : List Mark} (hrest : Cut rest ks) :
    Cut (itemChars items ++ ']' :: rest) (itemMarks items ++ .endArray :: ks) := by
  induction items with
  | nil => exact .cons (t := []) rfl rfl hrest
  | cons v r ih =>
    have hr := ih fun w hw => h w (List.mem_cons_of_mem v hw)
    have hv := h v List.mem_cons_self _ _ (follows_itemChars r rest) hr
    rw [itemChars, itemMarks]
    simp only [List.cons_append, List.append_assoc]
    exact .cons (t := []) rfl rfl hv

/-- A name is cut with its colon from what follows. -/
theorem cut_name (k : String) {rest : List Char} {ks : List Mark} (h : Cut rest ks) :
    Cut (writeString k ++ ':' :: rest) (.value (.string k) :: .colon :: ks) := by
  have hcolon : Cut (':' :: rest) (.colon :: ks) := .cons (t := []) rfl rfl h
  exact .cons rfl (mark?_string k _) hcolon

theorem cut_fieldChars {fields : List (String × Json)} (h : ∀ f ∈ fields, f.2.Cuts)
    {rest : List Char} {ks : List Mark} (hrest : Cut rest ks) :
    Cut (fieldChars fields ++ '\x7d' :: rest) (fieldMarks fields ++ .endObject :: ks) := by
  induction fields with
  | nil => exact .cons (t := []) rfl rfl hrest
  | cons f r ih =>
    obtain ⟨k, v⟩ := f
    have hr := ih fun w hw => h w (List.mem_cons_of_mem _ hw)
    have hv := h (k, v) List.mem_cons_self _ _ (follows_fieldChars r rest) hr
    have hname := cut_name k hv
    rw [fieldChars, fieldMarks]
    simp only [List.cons_append, List.append_assoc]
    exact .cons (t := []) rfl rfl hname

/-- The text of a tree is cut into the marks of the tree. -/
theorem Written.cuts {v : Json} (h : v.Written) : v.Cuts := by
  induction h with
  | null =>
    intro rest ks _ hks
    exact .cons (t := ['u', 'l', 'l']) rfl rfl hks
  | bool b =>
    intro rest ks _ hks
    cases b with
    | false => exact .cons (t := ['a', 'l', 's', 'e']) rfl rfl hks
    | true => exact .cons (t := ['r', 'u', 'e']) rfl rfl hks
  | int n =>
    intro rest ks hrest hks
    obtain ⟨c, cs, hchars, hc⟩ := exists_integerChars_eq n
    have hmark := mark?_ofInt n hrest
    have hspace : isSpace c = false := by
      rcases hc with rfl | hdigit
      · rfl
      · exact isSpace_of_isDigit hdigit
    show Cut ((String.ofList (integerChars n)).toList ++ rest) (.value (.ofInt n) :: ks)
    rw [String.toList_ofList]
    rw [hchars] at hmark ⊢
    exact .cons hspace hmark hks
  | string s =>
    intro rest ks _ hks
    exact .cons rfl (mark?_string s rest) hks
  | @array items _ ih =>
    intro rest ks _ hks
    -- from the back: what follows the first item, this item, and the bracket in front of it
    cases items with
    | nil =>
      have hend : Cut (']' :: rest) (.endArray :: ks) := .cons (t := []) rfl rfl hks
      exact .cons (t := []) rfl rfl hend
    | cons v r =>
      have hr := cut_itemChars (fun w hw => ih w (List.mem_cons_of_mem v hw)) hks
      have hv := ih v List.mem_cons_self _ _ (follows_itemChars r rest) hr
      rw [chars, toMarks]
      simp only [List.cons_append, List.append_assoc, List.nil_append]
      exact .cons (t := []) rfl rfl hv
  | @object fields _ ih =>
    intro rest ks _ hks
    cases fields with
    | nil =>
      have hend : Cut ('\x7d' :: rest) (.endObject :: ks) := .cons (t := []) rfl rfl hks
      exact .cons (t := []) rfl rfl hend
    | cons f r =>
      obtain ⟨k, v⟩ := f
      have hr := cut_fieldChars (fun w hw => ih w (List.mem_cons_of_mem _ hw)) hks
      have hv := ih (k, v) List.mem_cons_self _ _ (follows_fieldChars r rest) hr
      have hname := cut_name k hv
      rw [chars, toMarks]
      simp only [List.cons_append, List.append_assoc, List.nil_append]
      exact .cons (t := []) rfl rfl hname

end Json

end FilterQuery
