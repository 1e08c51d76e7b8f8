/-
# FilterQuery.Proofs.Language.RoundTrip -- canonical text is read back

The canonical text of a tree spells the lexemes of its phrase (`Node.lexes_phrase`), whatever
follows that cannot prolong the last of them. What follows a tree in canonical text is the end, a
separator or a closing parenthesis (`Delimited`), so the induction on trees closes. Behind an
operator stands a quote, a parenthesis or an unreserved character and never `=`, which is why
`<` is not taken for `<=`.

With what is known of phrases this gives the round trip and its exact limit: the text is read
back to the same tree as long as the tree is no higher than groups may nest, and beyond that it is
refused for its depth (`Node.parse_render`).
-/

import FilterQuery.Proofs.Language.Canonical
import FilterQuery.Proofs.Language.Recognition
import FilterQuery.Proofs.Language.Spelling

namespace FilterQuery

open Text Grammar

/-! ## Comparisons -/

section Spelled

variable {rest : List Char} {ls : List Lexeme}

namespace Comparison

theorem lexes_quoted (h : Lexes rest ls) (s : String) (r : List String) :
    Lexes ((String.intercalate "," ((s :: r).map Quoted.quote)).toList ++ rest)
      ((Operands.ofTexts s r).lexemes ++ ls) := by
  induction r generalizing s with
  | nil =>
    rw [List.map_singleton, String.intercalate_singleton]
    exact h.quoted s
  | cons t r ih =>
    rw [List.map_cons, List.map_cons, String.intercalate_cons_cons, ← List.map_cons,
      String.toList_append, String.toList_append, List.append_assoc, List.append_assoc]
    exact (ih t).or.quoted s

/-- Canonical text spells what stands behind an operator. -/
theorem lexes_rightSide {c : Comparison} (hne : c.arguments ≠ [])
    (h : Lexes rest ls) (hrest : Delimited rest) :
    Lexes (c.renderArguments.toList ++ rest) (c.rightSide.lexemes ++ ls) := by
  obtain ⟨o, selector, arguments⟩ := c
  obtain ⟨a, r, rfl⟩ := List.exists_cons_of_ne_nil hne
  rw [renderArguments, rightSide]
  cases hm : o.multi with
  | true =>
    simp only [if_true, RightSide.lexemes, String.toList_append, List.append_assoc,
      List.cons_append]
    exact (lexes_quoted h.closing a r).opening
  | false =>
    simp only [Bool.false_eq_true, if_false, renderArgument]
    split
    · rename_i hbare
      exact h.bare hbare hrest.ends
    · exact h.quoted a

/-- What stands behind an operator does not prolong it. -/
theorem head?_renderArguments {c : Comparison} (hne : c.arguments ≠ []) :
    (c.renderArguments.toList ++ rest).head? ≠ some '=' := by
  obtain ⟨o, selector, arguments⟩ := c
  obtain ⟨a, r, rfl⟩ := List.exists_cons_of_ne_nil hne
  rw [renderArguments]
  cases hm : o.multi with
  | true => simp
  | false =>
    simp only [Bool.false_eq_true, if_false, renderArgument]
    split
    · rename_i hbare
      obtain ⟨c, r, hcr, hc⟩ := exists_cons_of_isBare hbare
      rw [hcr]
      rintro ⟨⟩
      exact absurd hc (by decide)
    · simp [Quoted.quote]

/-- Canonical text spells the lexemes of a comparison. -/
theorem lexes_clause {c : Comparison} (hsymbol : isSymbol c.operator.primary = true)
    (hbare : isBare c.selector = true) (hne : c.arguments ≠ []) (h : Lexes rest ls)
    (hrest : Delimited rest) : Lexes (c.render.toList ++ rest) (c.clause.lexemes ++ ls) := by
  rw [render, String.toList_append, String.toList_append, List.append_assoc, List.append_assoc]
  have hoperator := (lexes_rightSide hne h hrest).operator hsymbol (head?_renderArguments hne)
  exact hoperator.bare hbare (isUnreserved_head_of_isSymbol hsymbol _)

end Comparison

/-! ## Trees -/

namespace Node

/-- Behind a child stands a separator, or what stands behind all children. -/
theorem delimited_renderMore (op : Connective) (ns : List Node) (hrest : Delimited rest) :
    Delimited ((renderMore op ns).toList ++ rest) := by
  cases ns with
  | nil => exact hrest
  | cons n r =>
    rw [renderMore, String.toList_append, String.toList_append]
    cases op with
    | and => exact .cons (.inl rfl) _
    | or => exact .cons (.inr (.inl rfl)) _

mutual

/-- Canonical text spells the lexemes of the phrase of a tree. -/
theorem lexes_phrase {rest : List Char} {ls : List Lexeme} : ∀ n : Node, n.Built → Lexes rest ls →
    Delimited rest → Lexes (n.render.toList ++ rest) (n.phrase.lexemes ++ ls)
  | comparison c, hn, h, hrest => by
    obtain ⟨hsymbol, hbare, hne, -⟩ := hn.parts c rfl
    exact Comparison.lexes_clause hsymbol hbare hne h hrest
  | logical variant op children, hn, h, hrest => by
    obtain ⟨hlength, hbuilt⟩ := hn.children variant op children rfl
    match children, hlength with
    | n :: r, _ =>
      -- the closing parenthesis ends the last child
      have hmore := lexes_phrases op r (fun m hm => hbuilt m (List.mem_cons_of_mem n hm)) h.closing
        (.cons (by simp) rest)
      have hall := (lexes_phrase n (hbuilt n List.mem_cons_self) hmore
        (delimited_renderMore op r (.cons (by simp) rest))).opening
      rw [render, renderAll, phrase, phrases]
      simp only [Constraint.lexemes, Disjunction.lexemes_joined, String.toList_append,
        List.append_assoc, List.cons_append]
      exact hall

/-- So do the texts of further children, each behind its separator. -/
theorem lexes_phrases {rest : List Char} {ls : List Lexeme} (op : Connective) : ∀ ns : List Node,
    (∀ m ∈ ns, Built m) → Lexes rest ls → Delimited rest →
      Lexes ((renderMore op ns).toList ++ rest)
        ((phrases ns).flatMap (fun q => separator op :: q.lexemes) ++ ls)
  | [], _, h, _ => h
  | n :: r, hn, h, hrest => by
    have hmore := lexes_phrases op r (fun m hm => hn m (List.mem_cons_of_mem n hm)) h hrest
    have hnode := lexes_phrase n (hn n List.mem_cons_self) hmore (delimited_renderMore op r hrest)
    rw [renderMore, phrases, List.flatMap_cons]
    simp only [String.toList_append, List.append_assoc, List.cons_append]
    cases op with
    | and => exact hnode.and
    | or => exact hnode.or

end

end Node

end Spelled

/-! ## The round trip -/

namespace Node

/-- Canonical text spells the phrase of its tree and nothing else. -/
theorem lexes_render {n : Node} (hn : n.Built) :
    Lexes n.render.toList (Disjunction.last (.last n.phrase)).lexemes := by
  have h := lexes_phrase n hn (.eof rfl) .nil
  rwa [List.append_nil, List.append_nil] at h

/-- A tree that is no higher than groups may nest comes back the same. -/
theorem parse_render_of_le {d : Dialect} {n : Node} (hn : n.Built) (hr : n.Readable d.operators)
    (hheight : n.height ≤ d.maxDepth) : ∃ m, d.parse n.render = .ok m ∧ (m == n) = true := by
  have hparse := parse_of_lexes (lexes_render hn) (by rwa [← depth_phrase n] at hheight)
    (fits_of_readable hn hr)
  exact ⟨n.phrase.tree d.operators, hparse, same_tree_phrase n hn hr⟩

/-- A higher one is refused for its depth. -/
theorem parse_render_of_lt {d : Dialect} {n : Node} (hn : n.Built) (hr : n.Readable d.operators)
    (hheight : d.maxDepth < n.height) : ∃ f, d.parse n.render = .error f ∧ TooDeep d f :=
  parse_of_lexes_deep (lexes_render hn) (by rwa [← depth_phrase n] at hheight)
    (fits_of_readable hn hr)

/-- Reading canonical text: a tree that is no higher than groups may nest comes back the same, a
higher one is refused because it opens one group too many. -/
theorem parse_render {d : Dialect} {n : Node} (hn : n.Built) (hr : n.Readable d.operators) :
    (n.height ≤ d.maxDepth → ∃ m, d.parse n.render = .ok m ∧ (m == n) = true) ∧
      (d.maxDepth < n.height → ∃ last line column, d.parse n.render =
        .error (.unexpected [s!"at most {d.maxDepth} nested groups"] "'('" last line column)) := by
  constructor
  · exact parse_render_of_le hn hr
  · intro hheight
    obtain ⟨f, hparse, last, line, column, rfl⟩ := parse_render_of_lt hn hr hheight
    exact ⟨last, line, column, hparse⟩

/-- An "and" in an "and", with arguments that need quotes: its canonical text is
`((a<'=it\'s';b=in=('','\\'));c<1)`. -/
def nested : Node :=
  .logical .and .and
    [.logical .and .and
      [.comparison ⟨⟨"<", [], false⟩, "a", ["=it's"]⟩,
        .comparison ⟨⟨"=in=", [], true⟩, "b", ["", "\\"]⟩],
      .comparison ⟨⟨"<", [], false⟩, "c", ["1"]⟩]

theorem built_nested : nested.Built := by
  have hless : Operator.ofSymbols ["<"] false = .ok ⟨"<", [], false⟩ := by rfl
  have hin : Operator.ofSymbols ["=in="] true = .ok ⟨"=in=", [], true⟩ := by rfl
  have ha : Built (.comparison ⟨⟨"<", [], false⟩, "a", ["=it's"]⟩) :=
    .comparison hless (Comparison.make_eq_ok_iff.2 ⟨by decide, by simp, by simp, rfl⟩)
  have hb : Built (.comparison ⟨⟨"=in=", [], true⟩, "b", ["", "\\"]⟩) :=
    .comparison hin (Comparison.make_eq_ok_iff.2 ⟨by decide, by simp, by simp, rfl⟩)
  have hc : Built (.comparison ⟨⟨"<", [], false⟩, "c", ["1"]⟩) :=
    .comparison hless (Comparison.make_eq_ok_iff.2 ⟨by decide, by simp, by simp, rfl⟩)
  exact .pair .and (.pair .and ha hb) hc

theorem readable_nested :
    nested.Readable (.ofList [⟨"<", [], false⟩, ⟨"=in=", ["=any="], true⟩]) := by
  intro c hc
  simp only [nested, comparisons, comparisonsAll, List.append_nil, List.cons_append,
    List.nil_append, List.mem_cons, List.not_mem_nil, or_false] at hc
  rcases hc with rfl | rfl | rfl
  · exact ⟨⟨"<", [], false⟩, rfl, rfl, fun _ => rfl⟩
  · exact ⟨⟨"=in=", ["=any="], true⟩, rfl, rfl, by simp⟩
  · exact ⟨⟨"<", [], false⟩, rfl, rfl, fun _ => rfl⟩

theorem parse_render_nested :
    (∃ m, Dialect.parse ⟨.ofList [⟨"<", [], false⟩, ⟨"=in=", ["=any="], true⟩], 2⟩
      nested.render = .ok m ∧ (m == nested) = true) ∧
    ∃ last line column, Dialect.parse ⟨.ofList [⟨"<", [], false⟩, ⟨"=in=", ["=any="], true⟩], 1⟩
      nested.render = .error (.unexpected ["at most 1 nested groups"] "'('" last line column) :=
  ⟨(parse_render built_nested readable_nested).1 (by decide),
    (parse_render built_nested readable_nested).2 (by decide)⟩

end Node

end FilterQuery
