/-
# FilterQuery.Proofs.Language.Tiling -- the tokens of a text tile it

A text that ends without a fault is its tokens, each spelled in one of the ways in which that token
can be spelled, with nothing but blanks between them (`Tiled`). So tokenizing loses nothing, makes
nothing up and takes nothing twice; and each token says truly where it stands, in characters, lines
and columns that are counted in the text before it and not step by step (`Position.At`).

How a token may be spelled is said without the tokenizer: a quoted text is the content that
`Unescapes` to it, in two equal quotes. A bare text ends where it must, and `<` is not the beginning
of `<=` (`Lexeme.Stops`).

Whatever the text is, there is at most one item more than there are characters, and the end or a
fault is the last of them (`tokens_tile`).
-/

import FilterQuery.Proofs.Language.Delimiting
import FilterQuery.Proofs.Language.Stepping
import Mathlib.Data.List.TakeWhile

namespace FilterQuery

open Text

/-! ## Places -/

/-- The place behind these characters, told by counting them, the line feeds among them, and the
characters since the last line feed, or since the start. -/
structure Position.At (p : Position) (before : List Char) : Prop where
  offset : p.offset = before.length
  line : p.line = 1 + before.count '\n'
  column : p.column = 1 + (before.reverse.takeWhile (· ≠ '\n')).length

theorem Position.At.next {p : Position} {before : List Char} (h : p.At before) (c : Char) :
    (p.next c).At (before ++ [c]) := by
  obtain ⟨hoffset, hline, hcolumn⟩ := h
  rw [Position.next]
  split
  · rename_i hc
    subst hc
    exact ⟨by simp [hoffset], by simp [hline, Nat.add_assoc], by simp⟩
  · rename_i hc
    refine ⟨by simp [hoffset], by simp [hline, hc], ?_⟩
    simp [hcolumn, hc]
    omega

/-- Going on over characters counts them. -/
theorem Position.At.after {p : Position} {before : List Char} (h : p.At before)
    (cs : List Char) : (p.after cs).At (before ++ cs) := by
  induction cs generalizing p before with
  | nil => simpa using h
  | cons c cs ih =>
    rw [List.append_cons]
    exact ih (h.next c)

theorem Position.At.start : Position.At {} [] := ⟨rfl, rfl, rfl⟩

theorem Position.offset_after (p : Position) (cs : List Char) :
    (p.after cs).offset = p.offset + cs.length := by
  induction cs generalizing p with
  | nil => rfl
  | cons c cs ih =>
    have hnext : (p.next c).offset = p.offset + 1 := by
      rw [Position.next]
      split <;> rfl
    show ((p.next c).after cs).offset = _
    rw [ih, hnext, List.length_cons]
    omega

/-! ## Spellings -/

/-- What stands between two quotes, and what it stands for: a backslash takes the character behind
it as it is, and the quote itself stands only behind one. -/
inductive Text.Quoted.Unescapes (mark : Char) : List Char → List Char → Prop
  | nil : Unescapes mark [] []
  | plain {c : Char} {content text : List Char} : c ≠ mark → c ≠ '\\' →
      Unescapes mark content text → Unescapes mark (c :: content) (c :: text)
  | escaped (c : Char) {content text : List Char} :
      Unescapes mark content text → Unescapes mark ('\\' :: c :: content) (c :: text)

/-- The ways to spell a lexeme. The end has none. -/
inductive Lexeme.Spells : Lexeme → List Char → Prop
  | mark {c : Char} {l : Lexeme} : (c, l) ∈ Lexeme.marks → Spells l [c]
  | operator {symbol : String} : isSymbol symbol = true → Spells (.operator symbol) symbol.toList
  | bare {text : String} : isBare text = true → Spells (.bare text) text.toList
  | quoted {mark : Char} {content : List Char} {text : String} : mark = '"' ∨ mark = '\'' →
      Quoted.Unescapes mark content text.toList →
      Spells (.quoted text) (mark :: (content ++ [mark]))

/-- What follows a lexeme does not prolong it. -/
def Lexeme.Stops : Lexeme → List Char → Prop
  | .bare _, rest => ∀ c ∈ rest.head?, isUnreserved c = false
  | .operator symbol, rest => symbol = "<" ∨ symbol = ">" → rest.head? ≠ some '='
  | _, _ => True

/-- What has been read of a quoted text is its content and the closing quote. -/
theorem Text.Quoted.unescapes_of_read {mark : Char} {cs : List Char} {d : Reading}
    (h : read mark cs = some d) :
    ∃ content, d.spelled = content ++ [mark] ∧ Unescapes mark content d.text := by
  fun_induction read mark cs generalizing d with
  | case1 => cases h
  | case2 => cases h
  | case3 c r ih =>
    obtain ⟨e, he, rfl⟩ := Option.map_eq_some_iff.1 h
    obtain ⟨content, hspelled, htext⟩ := ih he
    exact ⟨'\\' :: c :: content, by simp [hspelled], .escaped c htext⟩
  | case4 r =>
    cases h
    exact ⟨[], rfl, .nil⟩
  | case5 c r hnil hcons hmark ih =>
    obtain ⟨e, he, rfl⟩ := Option.map_eq_some_iff.1 h
    obtain ⟨content, hspelled, htext⟩ := ih he
    exact ⟨c :: content, by simp [hspelled], .plain hmark (ne_backslash hnil hcons) htext⟩

/-- Letters between two equals signs are a comparison symbol. -/
theorem isSymbolText_of_letters {letters : List Char} (h : ∀ c ∈ letters, isLetter c = true) :
    isSymbolText ('=' :: (letters ++ ['='])) = true := by
  rw [isSymbolText]
  · rw [List.dropWhile_append_of_pos h, List.dropWhile_cons_of_neg (by decide)]
    decide

/-- Where a run ends, the next character is none that could prolong it. -/
theorem head?_dropWhile_eq_false {p : Char → Bool} {cs : List Char} :
    ∀ c ∈ (cs.dropWhile p).head?, p c = false := by
  intro c hc
  rw [← List.find?_not_eq_head?_dropWhile] at hc
  simpa using List.find?_some hc

/-- The text does not begin with the character. -/
theorem head?_ne_of_ne_cons {c : Char} {r : List Char} (h : ∀ r', r = c :: r' → False) :
    r.head? ≠ some c := by
  intro hhead
  obtain ⟨r', hr'⟩ := List.head?_eq_some_iff.1 hhead
  exact h r' hr'

/-- A comparison symbol in characters spells its operator. -/
theorem Lexeme.spells_of_isSymbolText {cs : List Char} (h : isSymbolText cs = true) :
    Spells (.operator (String.ofList cs)) cs := by
  have hsymbol : isSymbol (String.ofList cs) = true := by rwa [isSymbol, String.toList_ofList]
  simpa only [String.toList_ofList] using Spells.operator hsymbol

/-- Only the two symbols of one character can be prolonged. -/
theorem Lexeme.stops_of_ne {cs : List Char} (h : cs ≠ ['<'] ∧ cs ≠ ['>']) (rest : List Char) :
    Stops (.operator (String.ofList cs)) rest := by
  have hne : ∀ s : String, cs ≠ s.toList → String.ofList cs ≠ s := by
    rintro s hs rfl
    exact hs String.toList_ofList.symm
  rintro (heq | heq)
  · exact absurd heq (hne "<" h.1)
  · exact absurd heq (hne ">" h.2)

namespace Scan

variable {s r t : List Char} {c : Char} {l : Lexeme}

theorem spells_of_quotation (hc : c = '"' ∨ c = '\'') (h : found l s r = quotation c t) :
    l.Spells s ∧ l.Stops r := by
  rw [quotation] at h
  split at h
  · rename_i d hd
    cases h
    obtain ⟨content, hspelled, htext⟩ := Quoted.unescapes_of_read hd
    rw [hspelled]
    exact ⟨.quoted hc (by rwa [String.toList_ofList]), trivial⟩
  · cases h

theorem spells_of_equalsSign (h : found l s r = equalsSign t) : l.Spells s ∧ l.Stops r := by
  rw [equalsSign] at h
  split at h
  · cases h
    have hletters : ∀ c ∈ t.takeWhile isLetter, isLetter c = true :=
      List.all_eq_true.1 List.all_takeWhile
    exact ⟨Lexeme.spells_of_isSymbolText (isSymbolText_of_letters hletters),
      Lexeme.stops_of_ne (by simp) _⟩
  · cases h

theorem spells_of_angle (hc : c = '<' ∨ c = '>') (h : found l s r = angle c t) :
    l.Spells s ∧ l.Stops r := by
  rw [angle.eq_def] at h
  split at h
  · cases h
    have hsymbol : isSymbolText [c, '='] = true := by rcases hc with rfl | rfl <;> rfl
    exact ⟨Lexeme.spells_of_isSymbolText hsymbol, Lexeme.stops_of_ne (by simp) _⟩
  · rename_i hne
    cases h
    have hsymbol : isSymbolText [c] = true := by rcases hc with rfl | rfl <;> rfl
    exact ⟨Lexeme.spells_of_isSymbolText hsymbol, fun _ => head?_ne_of_ne_cons hne⟩

theorem spells_of_exclamation (h : found l s r = exclamation t) : l.Spells s ∧ l.Stops r := by
  rw [exclamation.eq_def] at h
  split at h
  · cases h
    have hsymbol : isSymbolText ['!', '='] = true := rfl
    exact ⟨Lexeme.spells_of_isSymbolText hsymbol, Lexeme.stops_of_ne (by simp) _⟩
  · cases h

theorem spells_of_run (hc : isUnreserved c = true) (h : found l s r = run (c :: t)) :
    l.Spells s ∧ l.Stops r := by
  cases h
  have hbare : isBare (String.ofList ((c :: t).takeWhile isUnreserved)) = true := by
    simp [isBare, hc]
  refine ⟨?_, head?_dropWhile_eq_false⟩
  simpa only [String.toList_ofList] using Lexeme.Spells.bare hbare

end Scan

/-- What is found is spelled as it should be, and ends as it should. -/
theorem spells_of_scan {cs s r : List Char} {l : Lexeme} (h : scan cs = .found l s r)
    (hl : l ≠ .eof) : l.Spells s ∧ l.Stops r := by
  cases cs with
  | nil =>
    cases h
    exact absurd rfl hl
  | cons c t =>
    have hbegins := scan_cons_iff.1 h
    generalize hx : Scan.found l s r = x at hbegins
    cases hbegins with
    | mark hc =>
      cases hx
      refine ⟨.mark hc, ?_⟩
      simp only [Lexeme.marks, List.mem_cons, Prod.mk.injEq, List.not_mem_nil, or_false] at hc
      rcases hc with ⟨-, rfl⟩ | ⟨-, rfl⟩ | ⟨-, rfl⟩ | ⟨-, rfl⟩ <;> trivial
    | quotation hc => exact Scan.spells_of_quotation hc hx
    | equalsSign _ => exact Scan.spells_of_equalsSign hx
    | angle hc => exact Scan.spells_of_angle hc hx
    | exclamation _ => exact Scan.spells_of_exclamation hx
    | run hc => exact Scan.spells_of_run hc hx
    | illegal _ => cases hx

/-! ## Tilings -/

/-- The characters behind `before` are the spellings of these tokens, each at the place where it
stands, with nothing but blanks before, between and behind them. -/
inductive Tiled : List Char → List Char → List Token → Prop
  | done {before gap : List Char} : (∀ c ∈ gap, isBlank c = true) → Tiled before gap []
  | tile {before gap s rest : List Char} {t : Token} {ts : List Token} :
      (∀ c ∈ gap, isBlank c = true) → t.start.At (before ++ gap) →
      t.lexeme.Spells s → t.lexeme.Stops rest →
      Tiled (before ++ gap ++ s) rest ts → Tiled before (gap ++ s ++ rest) (t :: ts)

theorem forall_mem_leadingBlanks (cs : List Char) : ∀ c ∈ leadingBlanks cs, isBlank c = true :=
  List.all_eq_true.1 List.all_takeWhile

namespace Cursor

variable {c d e : Cursor} {t : Token} {ts : List Token} {before : List Char}

/-- A step that gives a token takes blanks and a spelling of the token. -/
theorem spelling_of_next (h : c.next = (.ok t, d)) (hne : t.lexeme ≠ .eof) :
    ∃ gap s, (∀ c ∈ gap, isBlank c = true) ∧ t.lexeme.Spells s ∧ t.lexeme.Stops d.rest ∧
      c.rest = gap ++ (s ++ d.rest) ∧ t.start = c.position.after gap ∧
      d.position = t.start.after s := by
  obtain ⟨s, hscan, hstart, hposition⟩ := scan_of_next h
  obtain ⟨hspells, hstops⟩ := spells_of_scan hscan hne
  have hrest : s ++ d.rest = skipBlanks c.rest := by
    have happend := Scan.spelled_append_rest (skipBlanks c.rest)
    rwa [hscan] at happend
  refine ⟨leadingBlanks c.rest, s, forall_mem_leadingBlanks _, hspells, hstops, ?_, hstart,
    hposition⟩
  rw [hrest, leadingBlanks_append_skipBlanks]

/-- One step takes the blanks and the spelling of its token. -/
theorem tile_of_next (h : c.next = (.ok t, d)) (hne : t.lexeme ≠ .eof)
    (hplace : c.position.At before) :
    ∃ gap s, (∀ c ∈ gap, isBlank c = true) ∧ t.start.At (before ++ gap) ∧ t.lexeme.Spells s ∧
      t.lexeme.Stops d.rest ∧ c.rest = gap ++ s ++ d.rest ∧
      d.position.At (before ++ gap ++ s) := by
  obtain ⟨gap, s, hgap, hspells, hstops, hrest, hstart, hposition⟩ := spelling_of_next h hne
  have hplace' : t.start.At (before ++ gap) := by
    rw [hstart]
    exact hplace.after _
  refine ⟨gap, s, hgap, hplace', hspells, hstops, ?_, ?_⟩
  · rw [hrest, List.append_assoc]
  · rw [hposition]
    exact hplace'.after _

/-- The step that ends a text finds only blanks, and stands behind them. -/
theorem blank_of_next (h : c.next.1 = .ok t) (heof : t.lexeme = .eof)
    (hplace : c.position.At before) :
    (∀ x ∈ c.rest, isBlank x = true) ∧ t.start.At (before ++ c.rest) := by
  obtain ⟨s, hscan, hstart, -⟩ := scan_of_next (Prod.ext h rfl : c.next = (.ok t, c.next.2))
  have hskip : skipBlanks c.rest = [] := (scan_found hscan).2 heof
  have hrest : leadingBlanks c.rest = c.rest := by
    have happend := leadingBlanks_append_skipBlanks c.rest
    rwa [hskip, List.append_nil] at happend
  refine ⟨?_, ?_⟩
  · rw [← hrest]
    exact forall_mem_leadingBlanks _
  · rw [hstart, hrest]
    exact hplace.after _

/-- A row of steps tiles what it takes, and the step that ends the text the blanks behind. -/
theorem Reads.tiled (h : Reads c ts e) (hend : e.EndsWith (.eof t))
    (hplace : c.position.At before) : Tiled before c.rest ts ∧ t.start.At (before ++ c.rest) := by
  -- the text before the cursor grows with each token, so it is general in the induction
  induction h generalizing before with
  | none c =>
    obtain ⟨hblank, hat⟩ := blank_of_next hend.2 hend.1 hplace
    exact ⟨.done hblank, hat⟩
  | token hnext hne _ ih =>
    obtain ⟨gap, s, hgap, hat, hspells, hstops, hrest, hplace'⟩ := tile_of_next hnext hne hplace
    obtain ⟨htiled, heof⟩ := ih hend hplace'
    rw [hrest]
    refine ⟨.tile hgap hat hspells hstops htiled, ?_⟩
    simpa only [List.append_assoc] using heof

end Cursor

/-! ## Whole texts -/

/-- An item behind which there is no other: the end of a text, or a fault. -/
def Closes : Except LexicalFault Token → Prop
  | .ok t => t.lexeme = .eof
  | .error _ => True

/-- The items of a text are tokens and one item that closes them. -/
theorem exists_items_eq (text : String) :
    ∃ tokens last, (tokenize text).items = tokens.map .ok ++ [last] ∧
      tokens.length ≤ text.toList.length ∧ (∀ t ∈ tokens, t.lexeme ≠ .eof) ∧ Closes last ∧
      ∀ t, last = .ok t → Tiled [] text.toList tokens ∧ t.start.At text.toList := by
  obtain ⟨e, hreads, hends⟩ := Cursor.exists_reads_tokens (Cursor.start text)
  have hlength : (tokenize text).tokens.length ≤ text.toList.length :=
    (Nat.le_add_right ..).trans hreads.length_le
  refine ⟨(tokenize text).tokens, _, rfl, hlength, hreads.ne_eof, ?_, ?_⟩
  · rw [tokenize]
    split
    · rename_i heof
      rw [heof] at hends
      exact hends.1
    · trivial
  · intro t hlast
    rw [tokenize] at hlast ⊢
    split at hlast
    · rename_i heof
      cases hlast
      rw [heof] at hends
      exact hreads.tiled hends Position.At.start
    · cases hlast

/-- The tokens of a text tile it. There are at most as many items as characters and one, each the
outcome of one step of the tokenizer; the end or a fault comes last and nowhere else. A text whose
last item is no fault is its tokens in order, each in one of its spellings and as far as it
reaches, with nothing but blanks between them, and each place is the number of characters, of lines
and of characters in the line before it. -/
theorem tokens_tile (text : String) :
    (tokenize text).items.length ≤ text.toList.length + 1 ∧
      (tokenize text).items = (Cursor.start text).steps (tokenize text).items.length ∧
      (∀ before item behind, (tokenize text).items = before ++ item :: behind →
        (Closes item ↔ behind = [])) ∧
      ∀ before t, (tokenize text).items = before ++ [.ok t] →
        ∃ tokens, before = tokens.map .ok ∧ t.lexeme = .eof ∧ Tiled [] text.toList tokens ∧
          t.start.At text.toList := by
  obtain ⟨tokens, last, hitems, hlength, hne, hlast, htiled⟩ := exists_items_eq text
  refine ⟨?_, items_eq_steps text, ?_, ?_⟩
  · rw [hitems, List.length_append, List.length_map, List.length_singleton]
    omega
  · intro before item behind h
    rcases List.eq_nil_or_concat behind with rfl | ⟨behind, last', rfl⟩
    · rw [hitems] at h
      obtain ⟨-, h⟩ := List.append_inj' h rfl
      cases h
      exact ⟨fun _ => rfl, fun _ => hlast⟩
    · -- an item with others behind it is one of the tokens, and none of them is the end
      rw [hitems, List.concat_eq_append, ← List.cons_append, ← List.append_assoc] at h
      obtain ⟨h, -⟩ := List.append_inj' h rfl
      have hitem : item ∈ tokens.map Except.ok := by
        rw [h]
        simp
      obtain ⟨t, ht, rfl⟩ := List.mem_map.1 hitem
      exact ⟨fun hc => absurd hc (hne t ht), fun hc => by simp at hc⟩
  · intro before t h
    rw [hitems] at h
    obtain ⟨hbefore, hitem⟩ := List.append_inj' h rfl
    cases hitem
    exact ⟨tokens, hbefore.symm, hlast, htiled t rfl⟩

/-- Blanks around tokens, a line feed between two of them, and another one, an escape and the other
quote in a quoted text. -/
theorem tokens_tile_lines :
    Tiled [] " a<\n('\n\\'x\"',b) ".toList
      [⟨.bare "a", ⟨1, 1, 2⟩⟩, ⟨.operator "<", ⟨2, 1, 3⟩⟩, ⟨.opening, ⟨4, 2, 1⟩⟩,
        ⟨.quoted "\n'x\"", ⟨5, 2, 2⟩⟩, ⟨.or, ⟨12, 3, 6⟩⟩, ⟨.bare "b", ⟨13, 3, 7⟩⟩,
        ⟨.closing, ⟨14, 3, 8⟩⟩] ∧
      Position.At ⟨16, 3, 10⟩ " a<\n('\n\\'x\"',b) ".toList := by
  have hitems : (tokenize " a<\n('\n\\'x\"',b) ").items =
      [⟨.bare "a", ⟨1, 1, 2⟩⟩, ⟨.operator "<", ⟨2, 1, 3⟩⟩, ⟨.opening, ⟨4, 2, 1⟩⟩,
        ⟨.quoted "\n'x\"", ⟨5, 2, 2⟩⟩, ⟨.or, ⟨12, 3, 6⟩⟩, ⟨.bare "b", ⟨13, 3, 7⟩⟩,
        ⟨.closing, ⟨14, 3, 8⟩⟩].map .ok ++ [.ok ⟨.eof, ⟨16, 3, 10⟩⟩] := by
    with_unfolding_all rfl
  obtain ⟨-, -, -, htile⟩ := tokens_tile " a<\n('\n\\'x\"',b) "
  obtain ⟨tokens, htokens, -, htiled, hend⟩ := htile _ _ hitems
  have heq := (List.map_inj_right fun _ _ h => Except.ok.inj h).1 htokens
  rw [heq]
  exact ⟨htiled, hend⟩

end FilterQuery
