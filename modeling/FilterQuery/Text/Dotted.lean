/-
# FilterQuery.Text.Dotted -- texts joined by dots

A selector names a path of attributes, joined by dots. Splitting always gives at least one part:
the empty text has one empty part, and a dot at an end has an empty part beside it.
-/

namespace FilterQuery.Text.Dotted

/-- The parts of `cs` between dots; there is one more of them than there are dots. -/
def split : List Char → List (List Char)
  | [] => [[]]
  | c :: r =>
    if c = '.' then [] :: split r
    else match split r with
      | [] => [[c]]
      | p :: ps => (c :: p) :: ps

/-- The parts of a dotted text. -/
def parts (s : String) : List String := (split s.toList).map String.ofList

/-- The text whose parts are given. -/
def join (ps : List String) : String := String.intercalate "." ps

theorem split_ne_nil (cs : List Char) : split cs ≠ [] := by
  fun_cases split cs <;> simp

theorem split_eq_splitOn (cs : List Char) : split cs = cs.splitOn '.' := by
  induction cs with
  | nil => rfl
  | cons c r ih =>
    rw [split, List.splitOn_cons_eq_if_modifyHead, ← ih]
    by_cases hc : c = '.'
    · simp [hc]
    · cases hsplit : split r with
      | nil => exact absurd hsplit (split_ne_nil r)
      | cons p ps => simp [hc]

/-- No part holds a dot. -/
theorem dot_not_mem_of_mem_split {cs p : List Char} (h : p ∈ split cs) : '.' ∉ p := by
  induction cs generalizing p with
  | nil => simp_all [split]
  | cons c r ih =>
    rw [split] at h
    by_cases hc : c = '.'
    · rw [if_pos hc, List.mem_cons] at h
      rcases h with rfl | h
      · exact List.not_mem_nil
      · exact ih h
    · rw [if_neg hc] at h
      cases hsplit : split r with
      | nil => exact absurd hsplit (split_ne_nil r)
      | cons q qs =>
        rw [hsplit, List.mem_cons] at h
        rcases h with rfl | h
        · have hq : '.' ∉ q := ih (hsplit ▸ List.mem_cons_self)
          simp [hq, Ne.symm hc]
        · exact ih (hsplit ▸ List.mem_cons_of_mem q h)

theorem parts_ne_nil (s : String) : parts s ≠ [] := by
  simp [parts, split_ne_nil]

theorem dot_not_mem_of_mem_parts {s p : String} (h : p ∈ parts s) : '.' ∉ p.toList := by
  obtain ⟨cs, hcs, rfl⟩ := List.mem_map.1 h
  rw [String.toList_ofList]
  exact dot_not_mem_of_mem_split hcs

/-- A text is what its parts are joined to. -/
theorem join_parts (s : String) : join (parts s) = s := by
  have hid : String.toList ∘ String.ofList = id := by
    funext cs
    exact String.toList_ofList
  apply String.toList_inj.1
  rw [join, parts, String.toList_intercalate, List.map_map, hid, List.map_id, split_eq_splitOn]
  exact List.intercalate_splitOn '.'

/-- Texts without dots are the parts of what they are joined to. -/
theorem parts_join {ps : List String} (hne : ps ≠ []) (h : ∀ p ∈ ps, '.' ∉ p.toList) :
    parts (join ps) = ps := by
  have hid : String.ofList ∘ String.toList = id := by
    funext s
    exact String.ofList_toList
  have hsplit : split (join ps).toList = ps.map String.toList := by
    rw [split_eq_splitOn, join, String.toList_intercalate]
    apply List.splitOn_intercalate
    · simpa using h
    · simpa using hne
  rw [parts, hsplit, List.map_map, hid, List.map_id]

end FilterQuery.Text.Dotted
