/-
# FilterQuery.Proofs.Language.Joining -- filters that are put together as texts

Filters that are read by themselves may be put in parentheses and joined with semicolons or commas,
as texts, without looking into them: what is read is the node that joins their trees
(`parse_joinTexts`). No filter gets out of its parentheses, whatever it ends with, so a restriction
that is joined to a filter in this way holds of the whole.

That rests on two facts. The parenthesis behind a filter ends its last lexeme and is no part of it
(`Lexes.append`), so the joined text spells the phrases of the filters, each in a group. And a
phrase takes its place in a group with its own depth and one more.
-/

import FilterQuery.Proofs.Language.RoundTrip
import FilterQuery.Proofs.Language.Trees

namespace FilterQuery

open Grammar

namespace Connective

/-- The texts in parentheses, with the symbol of the connective between them. -/
def joinTexts (op : Connective) (texts : List String) : String :=
  String.intercalate op.symbol (texts.map fun t => "(" ++ t ++ ")")

theorem joinTexts_singleton (op : Connective) (t : String) :
    op.joinTexts [t] = "(" ++ t ++ ")" :=
  String.intercalate_singleton

theorem joinTexts_cons_cons (op : Connective) (t u : String) (more : List String) :
    op.joinTexts (t :: u :: more) = "(" ++ t ++ ")" ++ op.symbol ++ op.joinTexts (u :: more) :=
  String.intercalate_cons_cons

end Connective

namespace Grammar

/-! ## Texts and the phrases that they spell -/

/-- A text with the phrase that it spells. -/
structure Spelled where
  text : String
  phrase : Disjunction
  lexes : Lexes text.toList phrase.lexemes

namespace Spelled

variable {rest : List Char} {ls : List Lexeme}

/-- The phrase as a constraint, in parentheses. -/
def group (s : Spelled) : Constraint := .group s.phrase

/-- A text in parentheses spells its phrase as a group, whatever follows. -/
theorem lexes_group (s : Spelled) (h : Lexes rest ls) :
    Lexes (("(" ++ s.text ++ ")").toList ++ rest) (s.group.lexemes ++ ls) := by
  have hclosed := s.lexes.append h.closing (.cons (by simp) rest)
  simp only [group, Constraint.lexemes, String.toList_append, List.append_assoc, List.cons_append]
  exact hclosed.opening

/-- Joined texts spell the groups, with the lexeme of the connective between them. -/
theorem lexes_joinTexts (op : Connective) (h : Lexes rest ls) (s : Spelled) (more : List Spelled) :
    Lexes ((op.joinTexts (s.text :: more.map (·.text))).toList ++ rest)
      ((Disjunction.joined op s.group (more.map group)).lexemes ++ ls) := by
  induction more generalizing s with
  | nil =>
    rw [Disjunction.lexemes_joined]
    simpa [Connective.joinTexts_singleton] using s.lexes_group h
  | cons t more ih =>
    have hmore := ih t
    rw [Disjunction.lexemes_joined] at hmore ⊢
    -- the separator stands between this group and the others
    have hseparator : Lexes (op.symbol.toList ++
        ((op.joinTexts (t.text :: more.map (·.text))).toList ++ rest))
        (separator op :: (t.group.lexemes ++
          ((more.map group).flatMap fun q => separator op :: q.lexemes) ++ ls)) := by
      cases op with
      | and => exact hmore.and
      | or => exact hmore.or
    have hall := s.lexes_group hseparator
    rw [List.map_cons, Connective.joinTexts_cons_cons]
    simp only [String.toList_append, List.map_cons, List.flatMap_cons, List.append_assoc,
      List.cons_append] at hall ⊢
    exact hall

/-- Phrases that nest within a limit nest within one more as groups. -/
theorem depthAll_group_le {limit : Nat} (ss : List Spelled)
    (h : ∀ s ∈ ss, s.phrase.depth ≤ limit) : depthAll (ss.map group) ≤ limit + 1 := by
  induction ss with
  | nil => exact Nat.zero_le _
  | cons s ss ih =>
    have hs : s.group.depth ≤ limit + 1 := Nat.succ_le_succ (h s List.mem_cons_self)
    have hss := ih fun t ht => h t (List.mem_cons_of_mem s ht)
    rw [List.map_cons, depthAll]
    exact Nat.max_le.2 ⟨hs, hss⟩

end Spelled

end Grammar

namespace Dialect

variable {operators : Registry} {depth limit : Nat} {filters : List (String × Node)}

/-- Filters that are read spell phrases, of which their nodes are the trees. -/
theorem exists_spelled (h : ∀ f ∈ filters, parse ⟨operators, depth⟩ f.1 = .ok f.2) :
    ∃ ss : List Spelled, ss.map (·.text) = filters.map (·.1) ∧
      ss.map (·.phrase.tree operators) = filters.map (·.2) ∧
      ∀ s ∈ ss, s.phrase.depth ≤ depth ∧ ∀ c ∈ s.phrase.clauses, c.Fits operators := by
  induction filters with
  | nil => exact ⟨[], rfl, rfl, fun _ hs => (List.not_mem_nil hs).elim⟩
  | cons f filters ih =>
    obtain ⟨p, hlexes, hdepth, hfits, htree⟩ := exists_phrase_of_parse (h f List.mem_cons_self)
    obtain ⟨ss, htexts, htrees, hss⟩ := ih fun g hg => h g (List.mem_cons_of_mem f hg)
    refine ⟨⟨f.1, p, hlexes⟩ :: ss, ?_, ?_, ?_⟩
    · rw [List.map_cons, List.map_cons, htexts]
    · rw [List.map_cons, List.map_cons, htrees, htree]
    · intro s hs
      rcases List.mem_cons.1 hs with rfl | hs
      · exact ⟨hdepth, hfits⟩
      · exact hss s hs

/-- The joined texts of some filters, one at least, are read as their trees under the connective. -/
theorem parse_joinTexts_eq (op : Connective) (hne : filters ≠ [])
    (h : ∀ f ∈ filters, parse ⟨operators, depth⟩ f.1 = .ok f.2) (hlimit : depth + 1 ≤ limit) :
    parse ⟨operators, limit⟩ (op.joinTexts (filters.map (·.1))) =
      .ok (collapse op (filters.map (·.2))) := by
  obtain ⟨ss, htexts, htrees, hss⟩ := exists_spelled h
  rw [← htexts, ← htrees]
  match ss with
  | [] =>
    cases filters with
    | nil => exact absurd rfl hne
    | cons f filters => cases htexts
  | s :: more =>
    have hend : Lexes [] [] := .eof rfl
    have hlexes := Spelled.lexes_joinTexts op hend s more
    rw [List.append_nil, List.append_nil] at hlexes
    have hdepth : (Disjunction.joined op s.group (more.map Spelled.group)).depth ≤ limit := by
      rw [Disjunction.depth_joined]
      exact Nat.le_trans (Spelled.depthAll_group_le (s :: more) fun t ht => (hss t ht).1) hlimit
    have hfits : ∀ c ∈ (Disjunction.joined op s.group (more.map Spelled.group)).clauses,
        c.Fits operators := by
      intro c hc
      rw [Disjunction.clauses_joined, ← List.map_cons, List.flatMap_map] at hc
      obtain ⟨t, ht, hc⟩ := List.mem_flatMap.1 hc
      exact (hss t ht).2 c hc
    have htree : (Disjunction.joined op s.group (more.map Spelled.group)).tree operators =
        collapse op ((s :: more).map (·.phrase.tree operators)) := by
      rw [Disjunction.tree_joined, ← List.map_cons, List.map_map]
      rfl
    rw [← htree]
    exact parse_of_lexes (d := ⟨operators, limit⟩) hlexes hdepth hfits

/-- Filters that a dialect reads, one at least, come out as they went in when they are joined as
texts, in parentheses: where one group more may be open, semicolons give their trees under "and"
and commas give them under "or". A filter in parentheses is the filter itself. -/
theorem parse_joinTexts (op : Connective) (hne : filters ≠ [])
    (h : ∀ f ∈ filters, parse ⟨operators, depth⟩ f.1 = .ok f.2) (hlimit : depth + 1 ≤ limit) :
    (∃ n, Node.join op (filters.map (·.2)) = .ok n ∧
      parse ⟨operators, limit⟩ (op.joinTexts (filters.map (·.1))) = .ok n) ∧
    ∀ f ∈ filters, parse ⟨operators, limit⟩ ("(" ++ f.1 ++ ")") = .ok f.2 := by
  constructor
  · have hnodes : filters.map (·.2) ≠ [] := by simpa using hne
    exact ⟨_, join_eq_collapse op hnodes, parse_joinTexts_eq op hne h hlimit⟩
  · intro f hf
    have hone : ∀ g ∈ [f], parse ⟨operators, depth⟩ g.1 = .ok g.2 := by
      intro g hg
      rw [List.mem_singleton.1 hg]
      exact h f hf
    have hparse := parse_joinTexts_eq op (List.cons_ne_nil f []) hone hlimit
    rwa [List.map_singleton, Connective.joinTexts_singleton] at hparse

/-- A restriction, and a filter that has a parenthesis in quotes. -/
def guarded : List (String × Node) :=
  [("owner==me", .comparison ⟨⟨"==", [], false⟩, "owner", ["me"]⟩),
    ("a=in=(1,2),b==') '",
      .logical .or .or
        [.comparison ⟨⟨"=in=", [], true⟩, "a", ["1", "2"]⟩,
          .comparison ⟨⟨"==", [], false⟩, "b", [") "]⟩])]

theorem parse_guarded : ∀ f ∈ guarded, parse ⟨.standard, 0⟩ f.1 = .ok f.2 := by
  intro f hf
  simp only [guarded, List.mem_cons, List.not_mem_nil, or_false] at hf
  rcases hf with rfl | rfl
  · with_unfolding_all rfl
  · with_unfolding_all rfl

/-- The filter stays behind the restriction. -/
theorem parse_joinTexts_guarded :
    (∃ n, Node.join .and (guarded.map (·.2)) = .ok n ∧
      parse ⟨.standard, 1⟩ "(owner==me);(a=in=(1,2),b==') ')" = .ok n) ∧
    ∀ f ∈ guarded, parse ⟨.standard, 1⟩ ("(" ++ f.1 ++ ")") = .ok f.2 :=
  parse_joinTexts .and (by decide) parse_guarded (by decide)

end Dialect

end FilterQuery
