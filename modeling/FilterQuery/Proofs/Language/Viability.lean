/-
# FilterQuery.Proofs.Language.Viability -- refusals name the first token that cannot stand

Lexemes are viable when they begin a phrase whose groups nest within the limit, with the end behind
it. No registry is asked: the symbols of the phrase are any symbols, and any number of values may
stand in a list.

What a reader has taken is viable: the partial phrase that explains its state can be completed, by
finishing the constraint that is being read and closing all open groups (`Partial.complete`). And
what a reader refuses is not, since the outline of a phrase that went on with the refused token
would have a course on it. So a token is refused where reading comes to the first place that no
phrase goes beyond, never before it and never behind it (`refused_at_first_impossible`).
-/

import FilterQuery.Proofs.Language.Failures
import FilterQuery.Proofs.Language.Outline
import FilterQuery.Proofs.Language.Recognition

namespace FilterQuery.Grammar

open Dialect Dialect.State

/-- The lexemes begin those of a phrase with groups nested at most `limit` deep, or of one with the
end behind it. -/
def Viable (limit : Nat) (ls : List Lexeme) : Prop :=
  ∃ p : Disjunction, p.depth ≤ limit ∧ ls <+: p.lexemes ++ [.eof]

/-- Viable lexemes have a course. -/
theorem Viable.exists_course {limit : Nat} {ls : List Lexeme} (h : Viable limit ls) :
    ∃ o, Outline.course limit {} ls = some o := by
  obtain ⟨p, hdepth, hstart⟩ := h
  have hp : Outline.course limit {} p.lexemes = some ⟨0, .ended⟩ := p.course 0 (by omega)
  have hend : Outline.course limit {} (p.lexemes ++ [.eof]) = some ⟨0, .done⟩ :=
    Outline.course_singleton hp
  exact Outline.exists_course_of_prefix hstart hend

/-! ## What has been read can be completed -/

section Depth

variable {m : Nat}

theorem Conjunction.depth_gather_le {p : Constraint} {before : List Constraint}
    (hp : p.depth ≤ m) (hb : ∀ q ∈ before, q.depth ≤ m) : (gather p before).depth ≤ m :=
  List.foldlRecOn before _ (motive := fun ps : Conjunction => ps.depth ≤ m) hp
    fun _ hps q hq => Nat.max_le.2 ⟨hb q hq, hps⟩

theorem Disjunction.depth_gather_le {p : Conjunction} {before : List Conjunction}
    (hp : p.depth ≤ m) (hb : ∀ q ∈ before, q.depth ≤ m) : (gather p before).depth ≤ m :=
  List.foldlRecOn before _ (motive := fun ps : Disjunction => ps.depth ≤ m) hp
    fun _ hps q hq => Nat.max_le.2 ⟨hb q hq, hps⟩

end Depth

/-- A row that is sound at a level keeps its depth there with a constraint that has room. -/
theorem Row.depth_close_le {d : Dialect} {level : Nat} {r : Row} {p : Constraint}
    (hr : r.Sound d level) (hp : level + p.depth ≤ d.maxDepth) :
    level + (r.close p).depth ≤ d.maxDepth := by
  have hdisjuncts : ∀ q ∈ r.disjuncts, q.depth ≤ d.maxDepth - level := by
    intro q hq
    have hroom := (hr.1 q hq).1
    omega
  have hconjuncts : ∀ q ∈ r.conjuncts, q.depth ≤ d.maxDepth - level := by
    intro q hq
    have hroom := (hr.2 q hq).1
    omega
  have hlast := Conjunction.depth_gather_le (p := p) (by omega) hconjuncts
  have hclose : (r.close p).depth ≤ d.maxDepth - level :=
    Disjunction.depth_gather_le hlast hdisjuncts
  omega

namespace Part

/-- A constraint that begins with what has been read. -/
def complete : Part → Constraint
  | nothing => .clause ⟨"x", "==", .value (.bare "y")⟩
  | selector s => .clause ⟨s, "==", .value (.bare "y")⟩
  | symbol s o => .clause ⟨s, o, .value (.bare "y")⟩
  | element s o vs => .clause ⟨s, o, .list (.gather (.bare "y") vs)⟩
  | separator s o v vs => .clause ⟨s, o, .list (.gather v vs)⟩
  | clause c => .clause c
  | ended p => p

theorem lexemes_prefix_complete (p : Part) : p.lexemes <+: p.complete.lexemes := by
  cases p with
  | nothing => exact List.nil_prefix
  | selector s => exact ⟨[.operator "==", .bare "y"], rfl⟩
  | symbol s o => exact ⟨[.bare "y"], rfl⟩
  | element s o vs =>
    refine ⟨[.bare "y", .closing], ?_⟩
    simp [lexemes, complete, Constraint.lexemes, Clause.lexemes, RightSide.lexemes,
      Operands.lexemes_gather, Operand.lexeme]
  | separator s o v vs =>
    refine ⟨[.closing], ?_⟩
    simp [lexemes, complete, Constraint.lexemes, Clause.lexemes, RightSide.lexemes,
      Operands.lexemes_gather]
  | clause c => exact List.prefix_rfl
  | ended p => exact List.prefix_rfl

end Part

namespace Partial

/-- The alternatives of a row that ends with a constraint, with all groups around it closed. -/
def closeAll : List Row → Row → Constraint → Disjunction
  | [], row, p => row.close p
  | r :: rows, row, p => closeAll rows r (.group (row.close p))

theorem lexemes_prefix_closeAll (rows : List Row) (row : Row) (p : Constraint) :
    rows.reverse.flatMap (fun r => r.lexemes ++ [.opening]) ++ row.lexemes ++ p.lexemes <+:
      (closeAll rows row p).lexemes := by
  induction rows generalizing row p with
  | nil =>
    rw [closeAll, Row.lexemes_close]
    exact List.prefix_rfl
  | cons r rows ih =>
    -- the group of the row lacks only its closing parenthesis
    refine List.IsPrefix.trans ⟨[.closing], ?_⟩ (ih r (.group (row.close p)))
    simp [Constraint.lexemes, Row.lexemes_close]

theorem depth_closeAll_le {d : Dialect} {rows : List Row} {row : Row} {p : Constraint}
    (hrows : RowsSound d (row :: rows)) (hp : rows.length + p.depth ≤ d.maxDepth) :
    (closeAll rows row p).depth ≤ d.maxDepth := by
  induction rows generalizing row p with
  | nil =>
    have hclose := Row.depth_close_le hrows.1 hp
    rw [closeAll]
    omega
  | cons r rows ih =>
    have hclose := Row.depth_close_le hrows.1 hp
    rw [List.length_cons] at hclose
    refine ih hrows.2 ?_
    rw [Constraint.depth]
    omega

/-- A phrase that begins with what has been read. -/
def complete (σ : Partial) : Disjunction := closeAll σ.rows σ.row σ.part.complete

theorem lexemes_prefix_complete (σ : Partial) : σ.lexemes <+: σ.complete.lexemes := by
  obtain ⟨rows, row, part⟩ := σ
  have hpart := part.lexemes_prefix_complete
  refine List.IsPrefix.trans ?_ (lexemes_prefix_closeAll rows row part.complete)
  exact (List.prefix_append_right_inj _).2 hpart

theorem depth_complete_le {d : Dialect} {σ : Partial} (hσ : σ.Sound d) :
    σ.complete.depth ≤ d.maxDepth := by
  refine depth_closeAll_le hσ.rows ?_
  have hroom := hσ.room
  obtain ⟨rows, row, part⟩ := σ
  cases part with
  | ended p => exact (hσ.ended p rfl).1
  | _ => exact hroom

end Partial

variable {d : Dialect} {s u : State} {ls : List Lexeme}

/-- What a reader has taken is viable. -/
theorem Explains.viable (h : Explains d ls s) : Viable d.maxDepth ls := by
  obtain ⟨σ, rfl, hσ, -⟩ := h
  refine ⟨σ.complete, Partial.depth_complete_le hσ, ?_⟩
  exact σ.lexemes_prefix_complete.trans (List.prefix_append _ _)

/-! ## Where a reader refuses -/

variable {t : Token} {f : Failure} {read : List Token}

/-- In a state in which all is built the reader does not take the token, be it the end of the text
or another one. -/
def Refuses (d : Dialect) (u : State) (t : Token) (f : Failure) : Prop :=
  u.settle d = .ok u ∧
    (t.lexeme ≠ .eof ∧ u.step d t = .error f ∨ t.lexeme = .eof ∧ u.finish d t = .error f)

/-- A refused token is one on which the outline cannot go on. -/
theorem Refuses.next_eq_none (h : Refuses d u t f) :
    (outlineOf u).next d.maxDepth t.lexeme = none := by
  obtain ⟨hsettled, ⟨hne, hstep⟩ | ⟨hend, hfinish⟩⟩ := h
  · exact next_of_step hsettled hne hstep
  · rw [hend]
    exact next_of_finish hsettled hfinish

/-- The failure tells the refused token and the one before it. -/
theorem Refuses.exists_unexpected (h : Refuses d u t f) :
    ∃ expected, f = u.unexpected t expected := by
  obtain ⟨hsettled, ⟨-, hstep⟩ | ⟨-, hfinish⟩⟩ := h
  · exact unexpected_of_step hstep
  · rw [State.finish, hsettled] at hfinish
    obtain ⟨outer, frame, phase, last⟩ := u
    cases phase with
    | ended node =>
      cases outer with
      | nil => cases hfinish
      | cons g outer =>
        cases hfinish
        exact ⟨_, rfl⟩
    | _ =>
      cases hfinish
      exact ⟨_, rfl⟩

/-- The failure says that a token does not fit the grammar. -/
def Grammatical (f : Failure) : Prop :=
  ∃ expected found last line column, f.kind = .grammar expected found last line column

/-- What is said of a comparison that is not built is something else. -/
theorem not_grammatical_of_settle (h : s.settle d = .error f) : ¬ Grammatical f := by
  rintro ⟨expected, found, last, line, column, hkind⟩
  rcases kind_of_settle h with ⟨symbol, hsettle⟩ | hsettle
  · rw [hkind] at hsettle
    cases hsettle
  · rw [hkind] at hsettle
    cases hsettle

/-- Reading stops at a token: those before it have been taken, and with all built it is refused. -/
def StopsAt (d : Dialect) (s : State) (read : List Token) (t : Token) (f : Failure) : Prop :=
  ∃ v u, read.foldlM (State.feed d) s = .ok v ∧ v.settle d = .ok u ∧ Refuses d u t f

theorem StopsAt.cons {t' : Token} (hs : s.feed d t' = .ok u) (h : StopsAt d u read t f) :
    StopsAt d s (t' :: read) t f := by
  obtain ⟨v, w, hread, hw⟩ := h
  refine ⟨v, w, ?_, hw⟩
  rw [List.foldlM_cons, hs]
  exact hread

/-- A token that is not taken is where reading stops, unless the comparison before it could not be
built. -/
theorem stopsAt_of_feed (ht : t.lexeme ≠ .eof) (h : s.feed d t = .error f) (hf : Grammatical f) :
    StopsAt d s [] t f := by
  rw [feed_eq] at h
  rcases bind_eq_error_iff.1 h with hsettle | ⟨u, hu, h⟩
  · exact absurd hf (not_grammatical_of_settle hsettle)
  · rcases bind_eq_error_iff.1 h with hstep | ⟨v, -, hv⟩
    · exact ⟨s, u, rfl, hu, settle_idem hu, .inl ⟨ht, hstep⟩⟩
    · cases hv

theorem exists_stopsAt_of_run (hf : Grammatical f) (ts : List Token) : ∀ {s : State},
    (∀ t ∈ ts, t.lexeme ≠ .eof) → ts.foldlM (State.feed d) s = .error f →
      ∃ read t rest, ts = read ++ t :: rest ∧ StopsAt d s read t f := by
  induction ts with
  | nil =>
    intro s _ h
    cases h
  | cons t ts ih =>
    intro s hts h
    rw [List.foldlM_cons] at h
    rcases bind_eq_error_iff.1 h with hfeed | ⟨u, hu, h⟩
    · exact ⟨[], t, ts, rfl, stopsAt_of_feed (hts t List.mem_cons_self) hfeed hf⟩
    · have hrest : ∀ t' ∈ ts, t'.lexeme ≠ .eof := fun t' ht' => hts t' (List.mem_cons_of_mem _ ht')
      obtain ⟨read, t', rest, rfl, hstops⟩ := ih hrest h
      exact ⟨t :: read, t', rest, rfl, hstops.cons hu⟩

/-- A failure that is due to the grammar names a token at which reading stops. -/
theorem exists_stopsAt_of_parse {text : String} (h : d.parse text = .error f)
    (hf : Grammatical f) :
    ∃ read t, (read ++ [t]).map .ok <+: (tokenize text).items ∧ StopsAt d {} read t f := by
  obtain ⟨e, hreads, hends⟩ := Cursor.exists_reads_tokens (Cursor.start text)
  rw [Dialect.parse, parseTokens] at h
  rcases bind_eq_error_iff.1 h with hrun | ⟨s, hs, h⟩
  · obtain ⟨read, t, rest, htokens, hstops⟩ := exists_stopsAt_of_run hf _ hreads.ne_eof hrun
    refine ⟨read, t, ?_, hstops⟩
    have hstart : read ++ [t] <+: (tokenize text).tokens := ⟨rest, by rw [tokenize, htokens]; simp⟩
    exact (hstart.map _).trans (List.prefix_append _ _)
  · cases hend : (tokenize text).ending with
    | fault x =>
      -- a fault is told by its character, not by a token
      rw [hend] at h
      cases h
      obtain ⟨_, _, _, _, _, hkind⟩ := hf
      cases hkind
    | eof t =>
      rw [hend] at h
      refine ⟨(tokenize text).tokens, t, ?_, ?_⟩
      · rw [Tokens.items, hend, List.map_append]
        exact List.prefix_rfl
      · have heof : t.lexeme = .eof := by
          rw [tokenize] at hend
          rw [hend] at hends
          exact hends.1
        replace h : s.finish d t = .error f := h
        rw [← settle_bind_finish] at h
        rcases bind_eq_error_iff.1 h with hsettle | ⟨u, hu, h⟩
        · exact absurd hf (not_grammatical_of_settle hsettle)
        · exact ⟨s, u, hs, hu, settle_idem hu, .inr ⟨heof, h⟩⟩

/-! ## The first token that cannot stand -/

/-- The last of the tokens that have been taken is the one that the state keeps. -/
theorem last_of_run {v : State} (h : read.foldlM (State.feed d) s = .ok v) :
    v.last = read.getLast?.or s.last := by
  rcases List.eq_nil_or_concat read with rfl | ⟨before, t, rfl⟩
  · cases h
    rfl
  · rw [List.concat_eq_append, List.foldlM_append] at h
    obtain ⟨w, -, hfeed⟩ := bind_eq_ok_iff.1 h
    rw [List.foldlM_cons, feed_eq] at hfeed
    obtain ⟨x, hx, hnil⟩ := bind_eq_ok_iff.1 hfeed
    obtain ⟨u, -, hstep⟩ := bind_eq_ok_iff.1 hx
    obtain ⟨y, -, hy⟩ := bind_eq_ok_iff.1 hstep
    cases hnil
    cases hy
    simp

/-- Building a comparison keeps the last token. -/
theorem last_of_settle (h : s.settle d = .ok u) : u.last = s.last := by
  rcases settle_cases h with ⟨_, _, _, _, -, -, rfl⟩ | ⟨-, rfl⟩ <;> rfl

theorem StopsAt.viable (h : StopsAt d {} read t f) :
    Viable d.maxDepth (read.map (·.lexeme)) := by
  obtain ⟨v, -, hread, -⟩ := h
  exact ((Explains.initial d).run read hread).viable

theorem StopsAt.not_viable (h : StopsAt d {} read t f) :
    ¬ Viable d.maxDepth ((read ++ [t]).map (·.lexeme)) := by
  obtain ⟨v, u, hread, hu, hrefuses⟩ := h
  intro hviable
  obtain ⟨o, ho⟩ := hviable.exists_course
  have hcourse : Outline.course d.maxDepth {} (read.map (·.lexeme)) = some (outlineOf v) :=
    course_of_run read hread
  rw [List.map_append, List.map_singleton, Outline.course_singleton hcourse, ← outlineOf_settle hu,
    hrefuses.next_eq_none] at ho
  cases ho

/-- The failure has the place and the name of the token, and the name of the one before it. -/
theorem StopsAt.exists_unexpected (h : StopsAt d {} read t f) :
    ∃ expected, f = .unexpected expected t.describe (read.getLast?.map Token.describe) t.start.line
      t.start.column := by
  obtain ⟨v, u, hread, hu, hrefuses⟩ := h
  obtain ⟨expected, rfl⟩ := hrefuses.exists_unexpected
  refine ⟨expected, ?_⟩
  have hlast : u.last = read.getLast? := by
    rw [last_of_settle hu, last_of_run hread]
    exact Option.or_none
  rw [State.unexpected, hlast]

/-- A syntax error points at the first token that cannot stand: the tokens before it begin a phrase
within the nesting limit, and together with it they begin none, whatever the symbols and the numbers
of values behind them may be. The line, the column and the name are those of that token, and the
last token is the one before it, which is missing just when it is the first. -/
theorem refused_at_first_impossible {text : String} {expected : List String} {found : String}
    {last : Option String} {line column : Nat} (h : d.parse text = .error f)
    (hkind : f.kind = .grammar expected found last line column) :
    ∃ (read : List Token) (t : Token), (read ++ [t]).map .ok <+: (tokenize text).items ∧
      Viable d.maxDepth (read.map (·.lexeme)) ∧
      ¬ Viable d.maxDepth ((read ++ [t]).map (·.lexeme)) ∧
      line = t.start.line ∧ column = t.start.column ∧ found = t.describe ∧
      last = read.getLast?.map Token.describe ∧ (last = none ↔ read = []) := by
  obtain ⟨read, t, hitems, hstops⟩ := exists_stopsAt_of_parse h ⟨_, _, _, _, _, hkind⟩
  obtain ⟨expected', rfl⟩ := hstops.exists_unexpected
  cases hkind
  refine ⟨read, t, hitems, hstops.viable, hstops.not_viable, rfl, rfl, rfl, rfl, ?_⟩
  simp

/-- Where one group may be open, the second parenthesis cannot stand, on the second line. -/
theorem refused_at_first_impossible_nested :
    parse ⟨.standard, 1⟩ "(a==1,\n(b" =
        .error (.unexpected ["at most 1 nested groups"] "'('" (some "','") 2 1) ∧
      ∃ (read : List Token) (t : Token),
        (read ++ [t]).map .ok <+: (tokenize "(a==1,\n(b").items ∧
          Viable 1 (read.map (·.lexeme)) ∧ ¬ Viable 1 ((read ++ [t]).map (·.lexeme)) ∧
          2 = t.start.line ∧ 1 = t.start.column ∧ "'('" = t.describe ∧
          some "','" = read.getLast?.map Token.describe ∧ (some "','" = none ↔ read = []) := by
  have hrefused : parse ⟨.standard, 1⟩ "(a==1,\n(b" =
      .error (.unexpected ["at most 1 nested groups"] "'('" (some "','") 2 1) := by
    with_unfolding_all rfl
  exact ⟨hrefused, refused_at_first_impossible hrefused rfl⟩

end FilterQuery.Grammar
