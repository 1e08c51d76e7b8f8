/-
# FilterQuery.Proofs.Language.Faults -- where tokenizing fails

A fault is as exact as it can be. It names the character that stands at its offset, the text in
front of that character has just the tokens that were found before the fault, and no token begins
there: no mark, no comparison symbol, no bare text and no quoted text that ends. That holds however
much had been read before the failure was clear, which can be a run of letters or all of the text.

It rests on two facts. Tokens that have been found are found again when the text behind them is cut
off, since what is missing cannot prolong them (`Cursor.Reads.cut`). And a step gives a token, or
the end, exactly where there is one (`Cursor.exists_token_iff`).
-/

import FilterQuery.Proofs.Language.Scanning

namespace FilterQuery

open Text

variable {cs s r : List Char} {l : Lexeme} {x : Char}

/-- The character that is refused is the first one. -/
theorem exists_cons_of_illegal (h : scan cs = .illegal x s r) : ∃ t, cs = x :: t := by
  cases cs with
  | nil => cases h
  | cons c t =>
    have hbegins := scan_cons_iff.1 h
    generalize hx : Scan.illegal x s r = y at hbegins
    cases hbegins with
    | mark _ => cases hx
    | quotation _ =>
      rw [Scan.quotation] at hx
      split at hx <;> cases hx
      exact ⟨t, rfl⟩
    | equalsSign hc =>
      rw [Scan.equalsSign] at hx
      split at hx <;> cases hx
      exact ⟨t, by rw [hc]⟩
    | angle _ =>
      obtain ⟨l, s', r', hfound⟩ := Scan.exists_angle_eq_found c t
      rw [hfound] at hx
      cases hx
    | exclamation hc =>
      rw [Scan.exclamation.eq_def] at hx
      split at hx <;> cases hx
      exact ⟨_, by rw [hc]⟩
    | run _ => cases hx
    | illegal _ =>
      cases hx
      exact ⟨t, rfl⟩

/-- Where scanning fails no spelling begins. -/
theorem not_prefix_of_illegal (h : scan cs = .illegal x s r) {s' : List Char} (hs : l.Spells s') :
    ¬ s' <+: cs := by
  rintro ⟨rest, rfl⟩
  obtain ⟨l', s'', r', hfound⟩ := exists_found_of_spells hs rest
  rw [h] at hfound
  cases hfound

/-- What does not prolong a lexeme does so neither when its end is cut off. -/
theorem Lexeme.Stops.of_append {kept lost : List Char} (h : l.Stops (kept ++ lost)) :
    l.Stops kept := by
  cases kept with
  | nil => cases l <;> simp [Lexeme.Stops]
  | cons c kept => cases l <;> exact h

namespace Cursor

variable {c e : Cursor} {ts : List Token} {f : LexicalFault}

/-- A step gives a token, or the end, where nothing is left behind the blanks or a token begins
there, and nowhere else. -/
theorem exists_token_iff (c : Cursor) :
    (∃ t, c.next.1 = .ok t) ↔
      skipBlanks c.rest = [] ∨ ∃ l s, Lexeme.Spells l s ∧ s <+: skipBlanks c.rest := by
  rw [next_eq]
  cases hscan : scan (skipBlanks c.rest) with
  | found l s r =>
    refine iff_of_true ⟨_, rfl⟩ ?_
    by_cases hl : l = .eof
    · exact .inl ((scan_found hscan).2 hl)
    · obtain ⟨hrest, hspells, -⟩ := (scan_eq_found_iff hl).1 hscan
      exact .inr ⟨l, s, hspells, r, hrest.symm⟩
  | illegal x s r =>
    refine iff_of_false (fun ⟨t, ht⟩ => by cases ht) ?_
    rintro (hnil | ⟨l, s', hspells, hstart⟩)
    · rw [hnil] at hscan
      cases hscan
    · exact not_prefix_of_illegal hscan hspells hstart

/-- A step that fails has scanned what it names, at its offset. -/
theorem scan_of_fault (h : c.next.1 = .error f) :
    (∃ s r, scan (skipBlanks c.rest) = .illegal f.character s r) ∧
      f.offset = (c.position.after (leadingBlanks c.rest)).offset := by
  rw [next_eq] at h
  cases hscan : scan (skipBlanks c.rest) with
  | found l s r =>
    rw [hscan] at h
    cases h
  | illegal x s r =>
    rw [hscan] at h
    cases h
    exact ⟨⟨s, r, rfl⟩, rfl⟩

/-- A row of steps is the same when the end of the text behind it is cut off. -/
theorem Reads.cut {kept lost : List Char} (h : Reads c ts e) (he : e.rest = kept ++ lost) :
    ∃ front, c.rest = front ++ lost ∧ Reads ⟨c.position, front⟩ ts ⟨e.position, kept⟩ := by
  induction h with
  | none c => exact ⟨kept, he, .none _⟩
  | @token c d e t ts hnext hne _ ih =>
    obtain ⟨front, hfront, hreads⟩ := ih he
    obtain ⟨gap, s, hgap, hspells, hstops, hrest, hstart, hposition⟩ := spelling_of_next hnext hne
    rw [hfront] at hstops hrest
    refine ⟨gap ++ (s ++ front), by simp [hrest], .token ?_ hne hreads⟩
    rw [next_of_spells hgap hspells hstops.of_append, hposition, hstart]
    rw [← hstart]

end Cursor

/-- The text is cut in two by a fault: in front of it stand the tokens that were found, and what
begins with it cannot be scanned. -/
theorem exists_of_fault {text : String} {f : LexicalFault}
    (h : (tokenize text).ending = .fault f) :
    ∃ before behind place, text.toList = before ++ behind ∧ f.offset = before.length ∧
      Position.At place before ∧
      tokenize (String.ofList before) = ⟨(tokenize text).tokens, .eof ⟨.eof, place⟩⟩ ∧
      ∃ s r, scan behind = .illegal f.character s r := by
  obtain ⟨e, hreads, hends⟩ := Cursor.exists_reads_tokens (Cursor.start text)
  rw [tokenize] at h
  rw [h] at hends
  obtain ⟨hscan, hoffset⟩ := Cursor.scan_of_fault hends
  obtain ⟨consumed, hconsumed, hposition⟩ := hreads.consumes
  have hblanks := leadingBlanks_append_skipBlanks e.rest
  obtain ⟨before, hbefore, hcut⟩ := hreads.cut hblanks.symm
  have heq : before = consumed ++ leadingBlanks e.rest := by
    have hboth : before ++ skipBlanks e.rest =
        consumed ++ leadingBlanks e.rest ++ skipBlanks e.rest := by
      rw [List.append_assoc, hblanks, ← hconsumed, hbefore]
    exact List.append_cancel_right hboth
  have hplace : (e.position.after (leadingBlanks e.rest)).At before := by
    rw [hposition, heq]
    exact (Position.At.start.after consumed).after _
  refine ⟨before, skipBlanks e.rest, _, hbefore, hoffset.trans hplace.offset, hplace, ?_, hscan⟩
  rw [tokenize, Cursor.start, String.toList_ofList]
  have hnext := Cursor.next_of_blanks (forall_mem_leadingBlanks e.rest) e.position
  exact hcut.tokens_eq ⟨rfl, congrArg Prod.fst hnext⟩

/-- Faults are exact. The character that a fault names stands at its offset, the text before it has
the tokens that were found and then ends, and no token begins with it: its spelling is no beginning
of what follows. And a step never fails where a token begins behind the blanks; it gives one there,
or the end where nothing is left, and fails everywhere else. -/
theorem faults_exact :
    (∀ (text : String) (f : LexicalFault), (tokenize text).ending = .fault f →
      text.toList[f.offset]? = some f.character ∧
      (∃ place, Position.At place (text.toList.take f.offset) ∧
        tokenize (String.ofList (text.toList.take f.offset)) =
          ⟨(tokenize text).tokens, .eof ⟨.eof, place⟩⟩) ∧
      ∀ l s, Lexeme.Spells l s → ¬ s <+: text.toList.drop f.offset) ∧
    ∀ c : Cursor, (∃ t, c.next.1 = .ok t) ↔
      skipBlanks c.rest = [] ∨ ∃ l s, Lexeme.Spells l s ∧ s <+: skipBlanks c.rest := by
  refine ⟨?_, Cursor.exists_token_iff⟩
  intro text f h
  obtain ⟨before, behind, place, htext, hoffset, hplace, htokens, s, r, hscan⟩ := exists_of_fault h
  obtain ⟨t, rfl⟩ := exists_cons_of_illegal hscan
  have htake : text.toList.take f.offset = before := by rw [htext, hoffset, List.take_left]
  have hdrop : text.toList.drop f.offset = f.character :: t := by
    rw [htext, hoffset, List.drop_left]
  refine ⟨?_, ⟨place, ?_, ?_⟩, ?_⟩
  · rw [htext, hoffset, List.getElem?_append_right (Nat.le_refl _), Nat.sub_self]
    rfl
  · rw [htake]
    exact hplace
  · rw [htake]
    exact htokens
  · intro l s' hspells
    rw [hdrop]
    exact not_prefix_of_illegal hscan hspells

/-- A quoted text that has no end, with a backslash at the end of the text, and a symbol behind
blanks. -/
theorem faults_exact_unterminated :
    (tokenize "a<=(\n'b\\").ending = .fault ⟨'\'', 5⟩ ∧
      ("a<=(\n'b\\".toList[5]? = some '\'' ∧
        (∃ place, Position.At place ("a<=(\n'b\\".toList.take 5) ∧
          tokenize (String.ofList ("a<=(\n'b\\".toList.take 5)) =
            ⟨(tokenize "a<=(\n'b\\").tokens, .eof ⟨.eof, place⟩⟩) ∧
        ∀ l s, Lexeme.Spells l s → ¬ s <+: "a<=(\n'b\\".toList.drop 5) ∧
      ∃ t, (Cursor.next ⟨⟨1, 1, 2⟩, " \n=ge=2".toList⟩).1 = .ok t := by
  have hfault : (tokenize "a<=(\n'b\\").ending = .fault ⟨'\'', 5⟩ := by with_unfolding_all rfl
  have hsymbol : Lexeme.Spells (.operator "=ge=") "=ge=".toList := .operator (by decide)
  have hstart : "=ge=".toList <+: skipBlanks " \n=ge=2".toList := by decide
  exact ⟨hfault, faults_exact.1 _ _ hfault,
    (faults_exact.2 ⟨⟨1, 1, 2⟩, " \n=ge=2".toList⟩).2 (.inr ⟨_, _, hsymbol, hstart⟩)⟩

end FilterQuery
