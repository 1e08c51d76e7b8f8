/-
# FilterQuery.Proofs.Text.Reading -- what readers read and leave

Three facts about a reader are enough for the formats that are put together from it, and each goes
from the parts to the whole (`bind`). It *takes only* characters of some kind from the front of a
text. It *refines* another reader when that one reads all that it reads, as the same and up to the
same place. And it *reads* a text as a value before another text: there it takes just that text.

A number of fixed width is a row of so many digits, whatever follows
(`Reader.run_fixedNumber_eq_some_iff`), and numbers that are written with zeros in front are such
rows.
-/

import FilterQuery.Proofs.Text.Digits
import Mathlib.Data.List.TakeWhile

namespace FilterQuery.Text

variable {α β : Type} {cs ds rest : List Char} {c : Char} {n w : Nat}

/-! ## Digits that are no blanks -/

theorem isBlank_of_isDigit (h : isDigit c = true) : isBlank c = false := by
  rw [Bool.eq_false_iff, Ne]
  intro hblank
  have hrange := (isDigit_iff c).1 h
  have hlow : 48 ≤ c.toNat := hrange.1
  have hhigh : c.toNat ≤ 57 := hrange.2
  simp only [isBlank, blankRanges, List.any_cons, List.any_nil, Bool.or_eq_true, Bool.and_eq_true,
    decide_eq_true_eq, Bool.or_false] at hblank
  omega

theorem skipBlanks_suffix (cs : List Char) : skipBlanks cs <:+ cs := List.dropWhile_suffix _

theorem skipBlanks_ne_nil (hmem : c ∈ cs) (hc : isBlank c = false) : skipBlanks cs ≠ [] := by
  intro hnil
  have hblank := List.dropWhile_eq_nil_iff.1 hnil c hmem
  rw [hc] at hblank
  cases hblank

/-! ## Numbers of fixed width -/

theorem digitValue_lt (h : isDigit c = true) : digitValue c < 10 := by
  have hhigh : c.toNat ≤ 57 := ((isDigit_iff c).1 h).2
  show c.toNat - 48 < 10
  omega

theorem natOfDigits_lt (h : ∀ d ∈ ds, isDigit d = true) :
    natOfDigits ds < Nat.pow 10 ds.length := by
  have hvalues : ∀ v ∈ ds.reverse.map digitValue, v < 10 := by
    intro v hv
    obtain ⟨d, hd, rfl⟩ := List.mem_map.1 hv
    exact digitValue_lt (h d (List.mem_reverse.1 hd))
  have hlt := Nat.ofDigits_lt_base_pow_length (by decide) hvalues
  rw [List.length_map, List.length_reverse, ← natOfDigits_eq_ofDigits] at hlt
  exact hlt

theorem all_isDigit_paddedDigits (w n : Nat) : ∀ d ∈ paddedDigits w n, isDigit d = true := by
  intro d hd
  rcases List.mem_append.1 hd with hzero | hdigit
  · rw [List.eq_of_mem_replicate hzero]
    rfl
  · exact isDigit_of_mem_digitsOfNat hdigit

theorem paddedDigits_ne_nil (w n : Nat) : paddedDigits w n ≠ [] := by
  intro hnil
  exact digitsOfNat_ne_nil n (List.append_eq_nil_iff.1 hnil).2

theorem length_paddedDigits (hw : 0 < w) (hn : n < Nat.pow 10 w) :
    (paddedDigits w n).length = w := by
  have hle : (digitsOfNat n).length ≤ w := (Nat.length_toDigits_le_iff (by decide) hw).2 hn
  rw [paddedDigits, List.length_append, List.length_replicate]
  omega

theorem natOfDigits_paddedDigits (w n : Nat) : natOfDigits (paddedDigits w n) = n := by
  rw [natOfDigits, paddedDigits, Nat.ofDigitChars_append, Nat.ofDigitChars_replicate_zero,
    Nat.mul_zero]
  exact natOfDigits_digitsOfNat n

namespace Reader

/-! ## Readers one after the other -/

section Sequence

variable {p : Char → Prop} {r r' : Reader α} {f f' : α → Reader β} {a : α} {b : β}

theorem run_bind_eq_some_iff :
    (r >>= f).run cs = some (b, rest) ↔
      ∃ a mid, r.run cs = some (a, mid) ∧ (f a).run mid = some (b, rest) := by
  rw [StateT.run_bind, Option.bind_eq_bind, Option.bind_eq_some_iff]
  constructor
  · rintro ⟨⟨a, mid⟩, hr, hf⟩
    exact ⟨a, mid, hr, hf⟩
  · rintro ⟨a, mid, hr, hf⟩
    exact ⟨(a, mid), hr, hf⟩

theorem run_pure_eq_some_iff {a' : α} :
    (pure a : Reader α).run cs = some (a', rest) ↔ a = a' ∧ cs = rest := by
  show some (a, cs) = some (a', rest) ↔ _
  rw [Option.some_inj, Prod.mk.injEq]

/-- A reader leaves one rest only. -/
theorem rest_unique {a' : α} {rest' : List Char} (h : r.run cs = some (a, rest))
    (h' : r.run cs = some (a', rest')) : rest = rest' :=
  (Prod.mk.inj (Option.some.inj (h.symm.trans h'))).2

theorem readAll_eq_some_iff {s : String} :
    readAll r s = some a ↔ r.run s.toList = some (a, []) := by
  unfold readAll
  cases h : r.run s.toList with
  | none => simp
  | some p =>
    obtain ⟨a', rest⟩ := p
    cases rest <;> simp

/-- The reader takes characters from the front of a text, and only such that pass a test. -/
def TakesOnly (p : Char → Prop) (r : Reader α) : Prop :=
  ∀ cs a rest, r.run cs = some (a, rest) → ∃ taken, cs = taken ++ rest ∧ ∀ c ∈ taken, p c

/-- What the reader reads, the other reads as the same and up to the same place. -/
def Refines (r r' : Reader α) : Prop :=
  ∀ cs a rest, r.run cs = some (a, rest) → r'.run cs = some (a, rest)

/-- The reader reads `cs` as `a` if `rest` stands behind it. -/
def Reads (r : Reader α) (cs : List Char) (a : α) (rest : List Char) : Prop :=
  r.run (cs ++ rest) = some (a, rest)

theorem TakesOnly.pure (a : α) : TakesOnly p (pure a) := by
  intro cs a' rest h
  obtain ⟨-, rfl⟩ := run_pure_eq_some_iff.1 h
  exact ⟨[], rfl, nofun⟩

theorem TakesOnly.refuse : TakesOnly p (refuse : Reader α) := by
  intro cs a rest h
  cases h

theorem TakesOnly.bind (hr : TakesOnly p r) (hf : ∀ a, TakesOnly p (f a)) :
    TakesOnly p (r >>= f) := by
  intro cs b rest h
  obtain ⟨a, mid, ha, hb⟩ := run_bind_eq_some_iff.1 h
  obtain ⟨front, rfl, hfront⟩ := hr cs a mid ha
  obtain ⟨back, rfl, hback⟩ := hf a mid b rest hb
  exact ⟨front ++ back, (List.append_assoc front back rest).symm,
    List.forall_mem_append.2 ⟨hfront, hback⟩⟩

theorem Refines.refl (r : Reader α) : r.Refines r := fun _ _ _ h => h

theorem Refines.bind (hr : r.Refines r') (hf : ∀ a, (f a).Refines (f' a)) :
    (r >>= f).Refines (r' >>= f') := by
  intro cs b rest h
  obtain ⟨a, mid, ha, hb⟩ := run_bind_eq_some_iff.1 h
  exact run_bind_eq_some_iff.2 ⟨a, mid, hr cs a mid ha, hf a mid b rest hb⟩

theorem Reads.refines (h : Reads r cs a rest) (hr : r.Refines r') : Reads r' cs a rest :=
  hr _ _ _ h

theorem Reads.run_eq (h : Reads r cs a []) : r.run cs = some (a, []) := by
  rw [Reads, List.append_nil] at h
  exact h

theorem Reads.pure (a : α) (rest : List Char) : Reads (pure a) [] a rest := rfl

theorem Reads.bind (hr : Reads r cs a (ds ++ rest)) (hf : Reads (f a) ds b rest) :
    Reads (r >>= f) (cs ++ ds) b rest := by
  unfold Reads
  rw [List.append_assoc]
  exact run_bind_eq_some_iff.2 ⟨a, ds ++ rest, hr, hf⟩

/-- A reader that takes nothing more may follow. -/
theorem Reads.bind_last (hr : Reads r cs a rest) (hf : Reads (f a) [] b rest) :
    Reads (r >>= f) cs b rest :=
  run_bind_eq_some_iff.2 ⟨a, rest, hr, hf⟩

end Sequence

/-! ## Single characters and blanks -/

variable {p : Char → Prop}

theorem run_char_eq_some_iff {p : Char → Bool} {c : Char} :
    (char p).run cs = some (c, rest) ↔ cs = c :: rest ∧ p c = true := by
  cases cs with
  | nil => simp [char, StateT.run]
  | cons d ds =>
    show (if p d = true then some (d, ds) else none) = some (c, rest) ↔ _
    split
    · rename_i hp
      simp only [Option.some_inj, Prod.mk.injEq, List.cons.injEq]
      constructor
      · rintro ⟨rfl, rfl⟩
        exact ⟨⟨rfl, rfl⟩, hp⟩
      · rintro ⟨h, -⟩
        exact h
    · rename_i hp
      constructor
      · intro h
        cases h
      · rintro ⟨h, hc⟩
        cases h
        exact absurd hc hp

theorem run_literal_eq_some_iff {u : Unit} :
    (literal c).run cs = some (u, rest) ↔ cs = c :: rest := by
  unfold literal
  rw [run_bind_eq_some_iff]
  simp only [run_char_eq_some_iff, beq_iff_eq]
  constructor
  · rintro ⟨_, mid, ⟨rfl, rfl⟩, h⟩
    obtain ⟨-, rfl⟩ := run_pure_eq_some_iff.1 h
    rfl
  · rintro rfl
    exact ⟨c, rest, ⟨rfl, rfl⟩, rfl⟩

theorem run_blanks_eq_some_iff {u : Unit} :
    blanks.run cs = some (u, rest) ↔ skipBlanks cs = rest := by
  show some ((), skipBlanks cs) = some (u, rest) ↔ _
  simp only [Option.some_inj, Prod.mk.injEq, true_and]

theorem takesOnly_char {q : Char → Bool} (h : ∀ c, q c = true → p c) : TakesOnly p (char q) := by
  intro cs c rest hrun
  obtain ⟨rfl, hc⟩ := run_char_eq_some_iff.1 hrun
  exact ⟨[c], rfl, List.forall_mem_singleton.2 (h c hc)⟩

theorem takesOnly_literal (hc : p c) : TakesOnly p (literal c) := by
  refine (takesOnly_char fun d hd => ?_).bind fun _ => .pure ()
  rw [beq_iff_eq.1 hd]
  exact hc

theorem takesOnly_takeWhile {q : Char → Bool} (h : ∀ c, q c = true → p c) :
    TakesOnly p (takeWhile q) := by
  intro cs ds rest hrun
  cases hrun
  exact ⟨cs.takeWhile q, List.takeWhile_append_dropWhile.symm,
    fun c hc => h c (List.mem_takeWhile_imp hc)⟩

theorem takesOnly_blanks (h : ∀ c, isBlank c = true → p c) : TakesOnly p blanks := by
  intro cs u rest hrun
  rw [← run_blanks_eq_some_iff.1 hrun]
  exact ⟨leadingBlanks cs, (leadingBlanks_append_skipBlanks cs).symm,
    fun c hc => h c (List.mem_takeWhile_imp hc)⟩

theorem takesOnly_peek : TakesOnly p peek := by
  intro cs c rest hrun
  cases hrun
  exact ⟨[], rfl, nofun⟩

theorem reads_char {p : Char → Bool} (h : p c = true) (rest : List Char) :
    Reads (char p) [c] c rest :=
  run_char_eq_some_iff.2 ⟨rfl, h⟩

theorem reads_literal (c : Char) (rest : List Char) : Reads (literal c) [c] () rest :=
  run_literal_eq_some_iff.2 rfl

theorem Reads.literal_bind {f : Unit → Reader β} {b : β} (h : Reads (f ()) ds b rest) :
    Reads (literal c >>= f) (c :: ds) b rest :=
  (reads_literal c (ds ++ rest)).bind h

/-- Where no blank stands none is skipped. -/
theorem Reads.blanks_bind {r : Reader α} {a : α} (hc : isBlank c = false)
    (h : Reads r (c :: ds) a rest) : Reads (do blanks; r) (c :: ds) a rest :=
  run_bind_eq_some_iff.2 ⟨(), _, run_blanks_eq_some_iff.2 (skipBlanks_cons hc _), h⟩

/-- The next character decides. -/
theorem Reads.peek_bind {f : Option Char → Reader β} {b : β}
    (h : Reads (f (some c)) (c :: ds) b rest) : Reads (peek >>= f) (c :: ds) b rest :=
  run_bind_eq_some_iff.2 ⟨some c, c :: (ds ++ rest), rfl, h⟩

/-! ## Numbers -/

theorem splitDigits_append (h : ∀ d ∈ ds, isDigit d = true) (rest : List Char) :
    splitDigits ds.length (ds ++ rest) = (ds, rest) := by
  induction ds with
  | nil => rfl
  | cons d ds ih =>
    obtain ⟨hd, hds⟩ := List.forall_mem_cons.1 h
    show splitDigits (ds.length + 1) (d :: (ds ++ rest)) = _
    rw [splitDigits, if_pos hd, ih hds]

/-- Digits are split off the front. -/
theorem splitDigits_spec (n : Nat) (cs : List Char) :
    (splitDigits n cs).1 ++ (splitDigits n cs).2 = cs ∧
      ∀ d ∈ (splitDigits n cs).1, isDigit d = true := by
  induction n generalizing cs with
  | zero => exact ⟨rfl, nofun⟩
  | succ n ih =>
    cases cs with
    | nil => exact ⟨rfl, nofun⟩
    | cons c cs =>
      obtain ⟨happend, hdigits⟩ := ih cs
      rw [splitDigits]
      split
      · rename_i hc
        exact ⟨congrArg (c :: ·) happend, List.forall_mem_cons.2 ⟨hc, hdigits⟩⟩
      · exact ⟨rfl, nofun⟩

/-- A number of fixed width is a row of so many digits; it does not matter what follows. -/
theorem run_fixedNumber_eq_some_iff :
    (fixedNumber w).run cs = some (n, rest) ↔
      ∃ ds, cs = ds ++ rest ∧ (∀ d ∈ ds, isDigit d = true) ∧ ds.length = w ∧
        natOfDigits ds = n := by
  show (if (splitDigits w cs).1.length = w then
    some (natOfDigits (splitDigits w cs).1, (splitDigits w cs).2) else none) = _ ↔ _
  constructor
  · intro h
    split at h
    · rename_i hlength
      cases h
      obtain ⟨happend, hdigits⟩ := splitDigits_spec w cs
      exact ⟨_, happend.symm, hdigits, hlength, rfl⟩
    · cases h
  · rintro ⟨ds, rfl, hdigits, rfl, rfl⟩
    rw [splitDigits_append hdigits, if_pos rfl]

/-- A number of fixed width begins with a digit. -/
theorem exists_digit_of_run_fixedNumber (hw : 0 < w)
    (h : (fixedNumber w).run cs = some (n, rest)) : ∃ c r, cs = c :: r ∧ isDigit c = true := by
  obtain ⟨ds, rfl, hdigits, rfl, -⟩ := run_fixedNumber_eq_some_iff.1 h
  cases ds with
  | nil => cases hw
  | cons d ds => exact ⟨d, ds ++ rest, rfl, hdigits d List.mem_cons_self⟩

/-- So many digits write less than so many digits can. -/
theorem lt_of_run_fixedNumber (h : (fixedNumber w).run cs = some (n, rest)) :
    n < Nat.pow 10 w := by
  obtain ⟨ds, -, hdigits, rfl, rfl⟩ := run_fixedNumber_eq_some_iff.1 h
  exact natOfDigits_lt hdigits

theorem run_number_eq_some_iff {limit : Nat} :
    (number limit).run cs = some (n, rest) ↔
      ∃ ds, splitDigits limit cs = (ds, rest) ∧ ds ≠ [] ∧ natOfDigits ds = n := by
  unfold number StateT.run
  dsimp only
  split
  · rename_i heq
    constructor
    · intro h
      cases h
    · rintro ⟨ds, hsplit, hne, -⟩
      cases heq.symm.trans hsplit
      exact absurd rfl hne
  · rename_i hne heq
    constructor
    · intro h
      cases h
      exact ⟨_, heq, hne, rfl⟩
    · rintro ⟨ds, hsplit, -, rfl⟩
      cases heq.symm.trans hsplit
      rfl

/-- A number of at most so many digits may have that many. -/
theorem fixedNumber_refines_number (hw : 0 < w) : (fixedNumber w).Refines (number w) := by
  intro cs n rest h
  obtain ⟨ds, rfl, hdigits, rfl, rfl⟩ := run_fixedNumber_eq_some_iff.1 h
  exact run_number_eq_some_iff.2
    ⟨ds, splitDigits_append hdigits rest, List.ne_nil_of_length_pos hw, rfl⟩

/-- A number with zeros in front is read in its width. -/
theorem reads_fixedNumber (hw : 0 < w) (hn : n < Nat.pow 10 w) (rest : List Char) :
    Reads (fixedNumber w) (paddedDigits w n) n rest :=
  run_fixedNumber_eq_some_iff.2 ⟨_, rfl, all_isDigit_paddedDigits w n, length_paddedDigits hw hn,
    natOfDigits_paddedDigits w n⟩

/-- Digits end before what is no digit. -/
theorem reads_digits (h : ∀ d ∈ ds, isDigit d = true)
    (hrest : ∀ c ∈ rest.head?, isDigit c = false) : Reads (takeWhile isDigit) ds ds rest := by
  show some ((ds ++ rest).takeWhile isDigit, (ds ++ rest).dropWhile isDigit) = _
  rw [List.takeWhile_append_of_pos h, List.dropWhile_append_of_pos h]
  cases rest with
  | nil => simp
  | cons c rest => simp [hrest c rfl]

/-- A number is read up to the first character that is no digit. -/
theorem reads_anyNumber (hne : ds ≠ []) (hdigits : ∀ d ∈ ds, isDigit d = true)
    (hrest : ∀ c ∈ rest.head?, isDigit c = false) : Reads anyNumber ds (natOfDigits ds) rest := by
  refine (reads_digits hdigits hrest).bind_last ?_
  cases ds with
  | nil => exact absurd rfl hne
  | cons d ds => rfl

theorem takesOnly_number (h : ∀ c, isDigit c = true → p c) (limit : Nat) :
    TakesOnly p (number limit) := by
  intro cs n rest hrun
  obtain ⟨happend, hdigits⟩ := splitDigits_spec limit cs
  obtain ⟨ds, hsplit, -, -⟩ := run_number_eq_some_iff.1 hrun
  rw [hsplit] at happend hdigits
  exact ⟨ds, happend.symm, fun c hc => h c (hdigits c hc)⟩

theorem takesOnly_anyNumber (h : ∀ c, isDigit c = true → p c) : TakesOnly p anyNumber := by
  refine (takesOnly_takeWhile h).bind fun ds => ?_
  cases ds with
  | nil => exact .refuse
  | cons d ds => exact .pure _

end Reader

end FilterQuery.Text
