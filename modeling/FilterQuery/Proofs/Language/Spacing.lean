/-
# FilterQuery.Proofs.Language.Spacing -- blanks between tokens do not matter

Wherever the tokenizer stands between two steps, blanks may be put into the text. The items are the
same: those before the place stay as they are, those at the place and behind it move by the number
of blanks (`Moved`). So what a text is read as does not depend on the blanks between its tokens
(`blanks_between_tokens`).

Two cursors are run side by side, one on each text (`Cursor.Follows`). Before the place both stand
at the same position, and one still comes to the place; behind it they have the same text left. A
step keeps this, since neither a token that has ended nor a failure that is clear is changed by
blanks behind it (`scan_insert_found`, `scan_insert_illegal`). The one failure that goes on to the
end of the text is an open quote, and then the place is at the end.
-/

import FilterQuery.Proofs.Language.Recognition
import FilterQuery.Proofs.Language.Scanning
import Mathlib.Data.List.Forall2
import Mathlib.Logic.Relation

namespace FilterQuery

open Text

/-! ## Blanks that are put into a text -/

section Insertion

variable {front q b w s : List Char} {l : Lexeme} {x : Char}

theorem isUnreserved_of_isBlank {c : Char} (h : isBlank c = true) : isUnreserved c = false := by
  simp [isUnreserved, h]

theorem ne_equalsSign_of_isBlank {c : Char} (h : isBlank c = true) : c ≠ '=' :=
  ne_of_isBlank h '=' (by decide) (by decide)

theorem isLetter_of_isBlank {c : Char} (h : isBlank c = true) : isLetter c = false := by
  rw [Bool.eq_false_iff, Ne, isLetter_iff]
  intro hletter
  simp only [isBlank, blankRanges, List.any_cons, List.any_nil, Bool.or_eq_true, Bool.and_eq_true,
    decide_eq_true_eq, Bool.or_false] at h
  omega

/-- What is true of the blanks and of the character that they stand before is true of the character
that comes first. -/
theorem forall_head?_insert {P : Char → Prop} (hw : ∀ c ∈ w, P c)
    (h : ∀ c ∈ (q ++ b).head?, P c) : ∀ c ∈ (q ++ (w ++ b)).head?, P c := by
  cases q with
  | cons c q => exact h
  | nil =>
    cases w with
    | nil => exact h
    | cons c w =>
      intro c' hc'
      cases hc'
      exact hw c List.mem_cons_self

theorem head?_ne_insert (hw : ∀ c ∈ w, isBlank c = true) (h : (q ++ b).head? ≠ some '=') :
    (q ++ (w ++ b)).head? ≠ some '=' := by
  intro heq
  have hne : ∀ c ∈ (q ++ b).head?, c ≠ '=' := by
    rintro c hc rfl
    exact h hc
  exact forall_head?_insert (fun c hc => ne_equalsSign_of_isBlank (hw c hc)) hne '=' heq rfl

/-- Blanks prolong no lexeme. -/
theorem Lexeme.Stops.insert (hw : ∀ c ∈ w, isBlank c = true) (h : l.Stops (q ++ b)) :
    l.Stops (q ++ (w ++ b)) := by
  cases l with
  | bare text => exact forall_head?_insert (fun c hc => isUnreserved_of_isBlank (hw c hc)) h
  | operator symbol => exact fun hsymbol => head?_ne_insert hw (h hsymbol)
  | _ => trivial

/-- A lexeme that ends before the place is found as before. -/
theorem scan_insert_found (hw : ∀ c ∈ w, isBlank c = true) (hl : l ≠ .eof)
    (h : scan (front ++ b) = .found l s (q ++ b)) :
    scan (front ++ (w ++ b)) = .found l s (q ++ (w ++ b)) := by
  obtain ⟨heq, hspells, hstops⟩ := (scan_eq_found_iff hl).1 h
  rw [← List.append_assoc] at heq
  rw [List.append_cancel_right heq, List.append_assoc]
  exact scan_of_spells hspells (hstops.insert hw)

/-- Letters behind which there is no equals sign are no symbol. -/
theorem Scan.equalsSign_eq_illegal_iff {t r : List Char} :
    equalsSign t = .illegal x s r ↔ ∃ row, t = row ++ r ∧ (∀ c ∈ row, isLetter c = true) ∧
      (∀ c ∈ r.head?, isLetter c = false) ∧ r.head? ≠ some '=' ∧ x = '=' ∧ s = '=' :: row := by
  constructor
  · intro h
    have happend : t.takeWhile isLetter ++ t.dropWhile isLetter = t :=
      List.takeWhile_append_dropWhile
    rw [equalsSign] at h
    split at h
    · cases h
    · rename_i hne
      cases h
      exact ⟨_, happend.symm, List.all_eq_true.1 List.all_takeWhile, head?_dropWhile_eq_false,
        head?_ne_of_ne_cons hne, rfl, rfl⟩
  · rintro ⟨row, rfl, hrow, hletter, hne, rfl, rfl⟩
    rw [equalsSign, takeWhile_append_of_forall hrow hletter,
      dropWhile_append_of_forall hrow hletter]
    split
    · exact absurd rfl hne
    · rfl

theorem Scan.exclamation_eq_illegal_iff {t r : List Char} :
    exclamation t = .illegal x s r ↔ t = r ∧ r.head? ≠ some '=' ∧ x = '!' ∧ s = ['!'] := by
  rw [exclamation.eq_def]
  split
  · refine iff_of_false Scan.noConfusion ?_
    rintro ⟨rfl, hne, -⟩
    exact hne rfl
  · rename_i hne
    constructor
    · intro h
      cases h
      exact ⟨rfl, head?_ne_of_ne_cons hne, rfl, rfl⟩
    · rintro ⟨rfl, -, rfl, rfl⟩
      rfl

/-- Blanks close no quote. -/
theorem Text.Quoted.read_blanks {mark : Char} (hmark : mark = '"' ∨ mark = '\'')
    (hw : ∀ c ∈ w, isBlank c = true) : read mark w = none := by
  induction w with
  | nil => rfl
  | cons c w ih =>
    obtain ⟨hc, hw⟩ := List.forall_mem_cons.1 hw
    have hne : c ≠ mark := by
      rcases hmark with rfl | rfl <;> exact ne_of_isBlank hc _ (by decide) (by decide)
    have hbackslash : c ≠ '\\' := by
      rintro rfl
      exact absurd hc (by decide)
    rw [read_cons_of_ne hbackslash, if_neg hne, ih hw, Option.map_none]

/-- A quote that is open at the end of a text is open behind blanks, too. -/
theorem Text.Quoted.read_append_blanks {mark : Char} {cs : List Char}
    (hmark : mark = '"' ∨ mark = '\'') (hw : ∀ c ∈ w, isBlank c = true)
    (h : read mark cs = none) : read mark (cs ++ w) = none := by
  fun_induction read mark cs with
  | case1 => exact read_blanks hmark hw
  | case2 =>
    -- the backslash takes the first blank
    cases w with
    | nil => rfl
    | cons c w =>
      show (read mark w).map _ = none
      rw [read_blanks hmark fun c' hc' => hw c' (List.mem_cons_of_mem c hc'), Option.map_none]
  | case3 c r ih =>
    show (read mark (r ++ w)).map _ = none
    rw [ih (Option.map_eq_none_iff.1 h), Option.map_none]
  | case4 => cases h
  | case5 c r hnil hcons hne ih =>
    rw [List.cons_append, read_cons_of_ne (ne_backslash hnil hcons), if_neg hne,
      ih (Option.map_eq_none_iff.1 h), Option.map_none]

/-- A failure that is clear before the place is the same failure. The failure of an open quote is
clear only at the end. -/
theorem scan_insert_illegal (hw : ∀ c ∈ w, isBlank c = true) (hfront : front ≠ [])
    (h : scan (front ++ b) = .illegal x s (q ++ b)) :
    scan (front ++ (w ++ b)) = .illegal x s (q ++ (w ++ b)) ∨
      q ++ b = [] ∧ scan (front ++ (w ++ b)) = .illegal x (front ++ w) [] := by
  obtain ⟨c, t, rfl⟩ := List.exists_cons_of_ne_nil hfront
  rw [List.cons_append] at h ⊢
  have hbegins := scan_cons_iff.1 h
  generalize hx : Scan.illegal x s (q ++ b) = y at hbegins
  rw [scan_cons_iff, scan_cons_iff]
  cases hbegins with
  | mark _ => cases hx
  | quotation hc =>
    rw [Scan.quotation] at hx
    split at hx
    · cases hx
    · rename_i hnone
      simp only [Scan.illegal.injEq] at hx
      obtain ⟨rfl, rfl, hnil⟩ := hx
      obtain ⟨rfl, rfl⟩ := List.append_eq_nil_iff.1 hnil
      refine .inr ⟨rfl, ?_⟩
      rw [List.append_nil] at hnone ⊢
      have hopen : Scan.quotation x (t ++ w) = .illegal x (x :: (t ++ w)) [] := by
        rw [Scan.quotation, Quoted.read_append_blanks hc hw hnone]
      rw [List.cons_append, ← hopen]
      exact .quotation hc
  | equalsSign hc =>
    obtain ⟨row, ht, hrow, hletter, hne, rfl, rfl⟩ := Scan.equalsSign_eq_illegal_iff.1 hx.symm
    rw [← List.append_assoc] at ht
    have hsame : Scan.equalsSign (t ++ (w ++ b)) = .illegal '=' ('=' :: row) (q ++ (w ++ b)) :=
      Scan.equalsSign_eq_illegal_iff.2 ⟨row, by
        rw [List.append_cancel_right ht, List.append_assoc], hrow,
        forall_head?_insert (fun c hc => isLetter_of_isBlank (hw c hc)) hletter,
        head?_ne_insert hw hne, rfl, rfl⟩
    rw [← hsame]
    exact .inl (.equalsSign hc)
  | angle _ =>
    obtain ⟨l, s', r', hfound⟩ := Scan.exists_angle_eq_found c (t ++ b)
    rw [hfound] at hx
    cases hx
  | exclamation hc =>
    obtain ⟨ht, hne, rfl, rfl⟩ := Scan.exclamation_eq_illegal_iff.1 hx.symm
    have hsame : Scan.exclamation (t ++ (w ++ b)) = .illegal '!' ['!'] (q ++ (w ++ b)) := by
      rw [List.append_cancel_right ht]
      exact Scan.exclamation_eq_illegal_iff.2 ⟨rfl, head?_ne_insert hw hne, rfl, rfl⟩
    rw [← hsame]
    exact .inl (.exclamation hc)
  | run _ => cases hx
  | illegal hc =>
    simp only [Scan.illegal.injEq] at hx
    obtain ⟨rfl, rfl, hq⟩ := hx
    rw [← List.cons_append] at hq
    rw [List.append_cancel_right hq]
    exact .inl (.illegal hc)

end Insertion

/-! ## Places -/

/-- What an item says without its place: the lexeme, or the character that begins none. -/
def contentOf : Except LexicalFault Token → Except Char Lexeme
  | .ok t => .ok t.lexeme
  | .error f => .error f.character

/-- Where an item stands. -/
def offsetOf : Except LexicalFault Token → Nat
  | .ok t => t.start.offset
  | .error f => f.offset

/-- What becomes of an item when so many characters are put in at the offset `k`: in front of it
the item stays as it is, and from there on it says the same, so many characters further on. -/
inductive Moved (k count : Nat) (x y : Except LexicalFault Token) : Prop
  | stays : offsetOf x < k → y = x → Moved k count x y
  | moves : k ≤ offsetOf x → contentOf y = contentOf x → offsetOf y = offsetOf x + count →
      Moved k count x y

theorem Moved.contentOf_eq {k count : Nat} {x y : Except LexicalFault Token}
    (h : Moved k count x y) : contentOf y = contentOf x := by
  cases h with
  | stays _ heq => rw [heq]
  | moves _ hcontent _ => exact hcontent

theorem Moved.map_contentOf_eq {k count : Nat} {xs ys : List (Except LexicalFault Token)}
    (h : List.Forall₂ (Moved k count) xs ys) : ys.map contentOf = xs.map contentOf := by
  induction h with
  | nil => rfl
  | cons hmoved _ ih => rw [List.map_cons, List.map_cons, hmoved.contentOf_eq, ih]

/-- Whether an item is the last is a matter of what it says. -/
theorem closes_iff_of_contentOf_eq {x y : Except LexicalFault Token}
    (h : contentOf y = contentOf x) : Closes y ↔ Closes x := by
  cases x with
  | error f =>
    cases y with
    | error g => exact Iff.rfl
    | ok u => cases h
  | ok t =>
    cases y with
    | error g => cases h
    | ok u => rw [Closes, Closes, Except.ok.inj h]

/-! ## Two cursors -/

namespace Cursor

/-- Steps lead from one cursor to another, whatever they find. -/
def Leads : Cursor → Cursor → Prop := Relation.ReflTransGen fun c d => d = c.next.2

theorem Leads.step {c e : Cursor} (h : Leads c.next.2 e) : Leads c e :=
  Relation.ReflTransGen.head rfl h

theorem Leads.eq_or_step {c e : Cursor} (h : Leads c e) : c = e ∨ Leads c.next.2 e := by
  rcases Relation.ReflTransGen.cases_head h with heq | ⟨_, rfl, hrest⟩
  · exact .inl heq
  · exact .inr hrest

/-- They consume what is between the two. -/
theorem Leads.consumes {c e : Cursor} (h : Leads c e) : ∃ consumed, c.rest = consumed ++ e.rest ∧
    e.position = c.position.after consumed := by
  induction h with
  | refl => exact ⟨[], rfl, rfl⟩
  | @tail d e _ hstep ih =>
    obtain ⟨consumed, hrest, hposition⟩ := ih
    obtain ⟨more, hmore, hend⟩ := next_consumes d
    subst hstep
    refine ⟨consumed ++ more, ?_, ?_⟩
    · rw [hrest, hmore, List.append_assoc]
    · rw [hend, hposition, Position.after_append]

theorem Leads.offset_eq {p : Position} {front : List Char} {e : Cursor}
    (h : Leads ⟨p, front ++ e.rest⟩ e) : e.position.offset = p.offset + front.length := by
  obtain ⟨consumed, hrest, hposition⟩ := h.consumes
  rw [List.append_cancel_right hrest, hposition, Position.offset_after]

/-- The second cursor goes over the text into which the blanks `w` have been put, at the place `e`,
while the first goes over the text without them. Both stand at the same position until the first
comes to the place; from there on they have the same text left. -/
inductive Follows (e : Cursor) (w : List Char) : Cursor → Cursor → Prop
  | before {p : Position} {front : List Char} :
      Leads ⟨p, front ++ e.rest⟩ e → Follows e w ⟨p, front ++ e.rest⟩ ⟨p, front ++ (w ++ e.rest)⟩
  | behind {p p' : Position} {rest : List Char} :
      e.position.offset ≤ p.offset → p'.offset = p.offset + w.length →
      Follows e w ⟨p, rest⟩ ⟨p', rest⟩

variable {w : List Char} {p : Position} {e : Cursor}

/-- Behind the blanks the same is found, so many characters further on. -/
theorem moved_of_behind {p' : Position} {rest : List Char} (hk : e.position.offset ≤ p.offset)
    (hp : p'.offset = p.offset + w.length) :
    Moved e.position.offset w.length (Cursor.next ⟨p, rest⟩).1 (Cursor.next ⟨p', rest⟩).1 ∧
      Follows e w (Cursor.next ⟨p, rest⟩).2 (Cursor.next ⟨p', rest⟩).2 := by
  rw [next_eq, next_eq]
  cases scan (skipBlanks rest) with
  | found l s r =>
    refine ⟨.moves ?_ rfl ?_, .behind ?_ ?_⟩
    all_goals simp only [offsetOf, Position.offset_after]; omega
  | illegal x s r =>
    refine ⟨.moves ?_ rfl ?_, .behind ?_ ?_⟩
    all_goals simp only [offsetOf, Position.offset_after]; omega

/-- Where something is scanned before the place, it is scanned as it was. -/
theorem moved_of_cons {x : Char} {t : List Char} (hw : ∀ c ∈ w, isBlank c = true)
    (hx : isBlank x = false) (hleads : Leads (Cursor.next ⟨p, x :: t ++ e.rest⟩).2 e) :
    Moved e.position.offset w.length (Cursor.next ⟨p, x :: t ++ e.rest⟩).1
        (Cursor.next ⟨p, x :: t ++ (w ++ e.rest)⟩).1 ∧
      Follows e w (Cursor.next ⟨p, x :: t ++ e.rest⟩).2
        (Cursor.next ⟨p, x :: t ++ (w ++ e.rest)⟩).2 := by
  have hoffset : e.position.offset = p.offset + (x :: t).length := (Leads.step hleads).offset_eq
  have hbefore : p.offset < e.position.offset := by
    rw [hoffset, List.length_cons]
    omega
  obtain ⟨q, hq, -⟩ := hleads.consumes
  have hnext : ∀ r, Cursor.next ⟨p, x :: t ++ r⟩ = (scan (x :: t ++ r)).outcome p :=
    fun r => next_cons hx p (t ++ r)
  rw [hnext] at hleads hq ⊢
  rw [hnext]
  cases hscan : scan (x :: t ++ e.rest) with
  | found l s r =>
    rw [hscan] at hleads hq
    obtain rfl : r = q ++ e.rest := hq
    have hne : l ≠ .eof := by
      rintro rfl
      cases (scan_found hscan).2 rfl
    rw [scan_insert_found hw hne hscan]
    exact ⟨.stays hbefore rfl, .before hleads⟩
  | illegal y s r =>
    rw [hscan] at hleads hq
    obtain rfl : r = q ++ e.rest := hq
    rcases scan_insert_illegal hw (List.cons_ne_nil x t) hscan with hsame | ⟨hnil, hopen⟩
    · rw [hsame]
      exact ⟨.stays hbefore rfl, .before hleads⟩
    · -- the open quote has taken the blanks, too
      have hend : e.position.offset = (p.after s).offset + q.length := hleads.offset_eq
      rw [(List.append_eq_nil_iff.1 hnil).1, List.length_nil] at hend
      rw [hopen, hnil]
      refine ⟨.stays hbefore rfl, .behind hend.le ?_⟩
      rw [Position.offset_after, List.length_append]
      omega

/-- A step keeps the two cursors together, and finds the same. -/
theorem Follows.next {c c' : Cursor} (hw : ∀ x ∈ w, isBlank x = true) (h : Follows e w c c') :
    Moved e.position.offset w.length c.next.1 c'.next.1 ∧ Follows e w c.next.2 c'.next.2 := by
  cases h with
  | behind hk hp => exact moved_of_behind hk hp
  | @before p front hleads =>
    have hfront := leadingBlanks_append_skipBlanks front
    have hskip : ∀ r, Cursor.next ⟨p, front ++ r⟩ =
        Cursor.next ⟨p.after (leadingBlanks front), skipBlanks front ++ r⟩ := by
      intro r
      rw [← next_skip (forall_mem_leadingBlanks front), ← List.append_assoc, hfront]
    rw [hskip, hskip]
    cases hrest : skipBlanks front with
    | nil =>
      rw [hrest, List.append_nil] at hfront
      rw [hfront, List.nil_append, List.nil_append, next_skip hw]
      have hoffset := hleads.offset_eq
      rw [← Position.offset_after] at hoffset
      exact moved_of_behind hoffset.le (Position.offset_after _ w)
    | cons x t =>
      have hx : isBlank x = false :=
        head?_dropWhile_eq_false x (by rw [← skipBlanks, hrest]; exact rfl)
      rcases hleads.eq_or_step with heq | hstep
      · -- no text is in front of the place, not even `x`
        have hself : front ++ e.rest = e.rest := congrArg Cursor.rest heq
        rw [List.append_left_eq_self.1 hself] at hrest
        cases hrest
      · rw [hskip, hrest] at hstep
        exact moved_of_cons hw hx hstep

/-- So do any number of steps. -/
theorem Follows.steps {c c' : Cursor} (hw : ∀ x ∈ w, isBlank x = true) (h : Follows e w c c')
    (n : Nat) : List.Forall₂ (Moved e.position.offset w.length) (c.steps n) (c'.steps n) := by
  induction n generalizing c c' with
  | zero => exact .nil
  | succ n ih =>
    obtain ⟨hmoved, hnext⟩ := h.next hw
    exact .cons hmoved (ih hnext)

/-- An item that closes is the only one. -/
theorem items_of_closes {c : Cursor} (h : Closes c.next.1) : c.tokens.items = [c.next.1] := by
  rcases hnext : c.next with ⟨f | t, d⟩
  · rw [tokens_of_fault hnext]
    rfl
  · rw [hnext] at h
    rw [tokens_of_token hnext, if_pos (show t.lexeme = .eof from h)]
    rfl

/-- Behind any other item come those of the text behind it. -/
theorem items_of_not_closes {c : Cursor} (h : ¬ Closes c.next.1) :
    c.tokens.items = c.next.1 :: c.next.2.tokens.items := by
  rcases hnext : c.next with ⟨f | t, d⟩
  · rw [hnext] at h
    exact absurd trivial h
  · rw [hnext] at h
    rw [tokens_of_token hnext, if_neg (show ¬ t.lexeme = .eof from h)]
    rfl

theorem EndsWith.closes {c : Cursor} {x : Ending} (h : c.EndsWith x) : Closes c.next.1 := by
  cases x with
  | eof t =>
    rw [h.2]
    exact h.1
  | fault f =>
    rw [show c.next.1 = .error f from h]
    trivial

/-- So do the steps up to the end or to a fault. -/
theorem Follows.items {c c' : Cursor} (hw : ∀ x ∈ w, isBlank x = true) (h : Follows e w c c') :
    List.Forall₂ (Moved e.position.offset w.length) c.tokens.items c'.tokens.items := by
  obtain ⟨last, hreads, hends⟩ := exists_reads_tokens c
  generalize c.tokens.tokens = ts at hreads
  generalize c.tokens.ending = x at hends
  induction hreads generalizing c' with
  | none c =>
    have hmoved := (h.next hw).1
    have hcloses := hends.closes
    rw [items_of_closes hcloses,
      items_of_closes ((closes_iff_of_contentOf_eq hmoved.contentOf_eq).2 hcloses)]
    exact .cons hmoved .nil
  | @token c d last t ts hstep hne _ ih =>
    obtain ⟨hmoved, hnext⟩ := h.next hw
    have hopen : ¬ Closes c.next.1 := by
      rw [hstep]
      exact hne
    rw [items_of_not_closes hopen,
      items_of_not_closes (mt (closes_iff_of_contentOf_eq hmoved.contentOf_eq).1 hopen)]
    rw [hstep] at hmoved hnext ⊢
    exact .cons hmoved (ih hnext hends)

end Cursor

/-! ## Whole texts -/

/-- What the tokens of a text say is what its items say. -/
theorem Tokens.lexemes?_eq_of_contentOf {x y : Tokens}
    (h : y.items.map contentOf = x.items.map contentOf) : y.lexemes? = x.lexemes? := by
  obtain ⟨xs, xend⟩ := x
  obtain ⟨ys, yend⟩ := y
  rw [Tokens.items, Tokens.items, List.map_append, List.map_append, List.map_map,
    List.map_map] at h
  obtain ⟨htokens, hlast⟩ := List.append_inj' h rfl
  have hlexemes : ys.map (·.lexeme) = xs.map (·.lexeme) := by
    have hok : contentOf ∘ Except.ok = Except.ok ∘ (·.lexeme) := rfl
    rw [hok, ← List.map_map, ← List.map_map] at htokens
    exact (List.map_inj_right fun _ _ => Except.ok.inj).1 htokens
  cases xend <;> cases yend
  · exact congrArg some hlexemes
  · cases hlast
  · cases hlast
  · rfl

namespace Grammar

/-- What a text is read as depends on its lexemes alone. -/
theorem parse_of_lexemes?_eq {d : Dialect} {text other : String} {n : Node}
    (hsame : (tokenize other).lexemes? = (tokenize text).lexemes?) (h : d.parse text = .ok n) :
    d.parse other = .ok n := by
  obtain ⟨p, hlexes, hdepth, hfits, rfl⟩ := exists_phrase_of_parse h
  rw [← lexemes?_tokenize, ← hsame, lexemes?_tokenize] at hlexes
  exact parse_of_lexes hlexes hdepth hfits

end Grammar

/-- The tokenizer stands between these two texts after some number of steps, which may be none. -/
def StandsBetween (a b : String) : Prop :=
  ∃ place, Cursor.Leads (Cursor.start (a ++ b)) ⟨place, b.toList⟩

/-- Blanks between tokens do not matter. Where the tokenizer stands between two steps blanks may be
put into a text: item by item, up to the end or to a fault and also for any number of steps that go
on behind it, the text has what it had, what stood in front of the place as it was and what stood
behind it so many characters further on. So every dialect that reads one of the two texts reads the
other one, as the same. -/
theorem blanks_between_tokens {a b w : String} (hplace : StandsBetween a b)
    (hw : ∀ c ∈ w.toList, isBlank c = true) :
    List.Forall₂ (Moved a.toList.length w.toList.length) (tokenize (a ++ b)).items
      (tokenize (a ++ w ++ b)).items ∧
    (∀ n, List.Forall₂ (Moved a.toList.length w.toList.length)
      ((Cursor.start (a ++ b)).steps n) ((Cursor.start (a ++ w ++ b)).steps n)) ∧
    ∀ (d : Dialect) (n : Node), d.parse (a ++ w ++ b) = .ok n ↔ d.parse (a ++ b) = .ok n := by
  obtain ⟨place, hleads⟩ := hplace
  rw [Cursor.start, String.toList_append] at hleads
  have hoffset : place.offset = a.toList.length :=
    (Cursor.Leads.offset_eq (e := ⟨place, b.toList⟩) hleads).trans (Nat.zero_add _)
  have hfollows : Cursor.Follows ⟨place, b.toList⟩ w.toList (Cursor.start (a ++ b))
      (Cursor.start (a ++ w ++ b)) := by
    rw [Cursor.start, Cursor.start, String.append_assoc, String.toList_append, String.toList_append,
      String.toList_append]
    exact .before hleads
  rw [← hoffset]
  have hitems := hfollows.items hw
  refine ⟨hitems, hfollows.steps hw, fun d n => ?_⟩
  have hlexemes : (tokenize (a ++ w ++ b)).lexemes? = (tokenize (a ++ b)).lexemes? :=
    Tokens.lexemes?_eq_of_contentOf (Moved.map_contentOf_eq hitems)
  exact ⟨Grammar.parse_of_lexemes?_eq hlexemes.symm, Grammar.parse_of_lexemes?_eq hlexemes⟩

/-- Blanks, of which one begins a line and one is wide, between a symbol and the value behind it. -/
theorem blanks_between_tokens_symbol :
    StandsBetween "a<" "'x y';b>2" ∧ (∀ c ∈ "\n\u2003 ".toList, isBlank c = true) ∧
      List.Forall₂ (Moved 2 3) (tokenize ("a<" ++ "'x y';b>2")).items
        (tokenize ("a<" ++ "\n\u2003 " ++ "'x y';b>2")).items ∧
      (∀ n, List.Forall₂ (Moved 2 3) ((Cursor.start ("a<" ++ "'x y';b>2")).steps n)
        ((Cursor.start ("a<" ++ "\n\u2003 " ++ "'x y';b>2")).steps n)) ∧
      Dialect.parse {} ("a<" ++ "\n\u2003 " ++ "'x y';b>2") = .ok (.logical .and .and
        [.comparison ⟨⟨"=lt=", ["<"], false⟩, "a", ["x y"]⟩,
          .comparison ⟨⟨"=gt=", [">"], false⟩, "b", ["2"]⟩]) := by
  have hplace : StandsBetween "a<" "'x y';b>2" := ⟨⟨2, 1, 3⟩, .step (.step .refl)⟩
  have hblank : ∀ c ∈ "\n\u2003 ".toList, isBlank c = true := List.all_eq_true.1 (by decide)
  obtain ⟨hitems, hsteps, hparse⟩ := blanks_between_tokens hplace hblank
  exact ⟨hplace, hblank, hitems, hsteps, (hparse _ _).2 (by with_unfolding_all rfl)⟩

end FilterQuery
