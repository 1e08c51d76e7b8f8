/-
# FilterQuery.Proofs.Table.Tally -- tables made of items by key

A tally sorts a row of items by a key. It lists the keys in the order in which they first occur, and
has at each key what all the items with that key come to, taken in their order. It is told by the
row as a whole and says nothing of how a table comes about.

Tables are merged entry by entry: a key of the second one keeps its place in the first or comes
last, and its value is joined to the value that is there. If joining what two rows come to gives
what the rows come to one after the other, then so does merging their tallies
(`mergeWith_tally`). Tallies of tallies are no different, since merging is a way of joining.
-/

import FilterQuery.Proofs.Table.Entries
import Mathlib.Data.List.Induction

namespace FilterQuery

/-! ## First occurrences -/

section FirstOccurrences

variable {κ : Type} [DecidableEq κ]

/-- What comes last is a first occurrence if it is new. -/
theorem eraseDups_concat (ks : List κ) (k : κ) :
    (ks ++ [k]).eraseDups = if k ∈ ks then ks.eraseDups else ks.eraseDups ++ [k] := by
  rw [List.eraseDups_append]
  by_cases hk : k ∈ ks
  · simp [List.removeAll, hk]
  · simp [List.removeAll, hk, List.eraseDups_cons]

theorem nodup_eraseDups (ks : List κ) : ks.eraseDups.Nodup := by
  induction ks using List.reverseRecOn with
  | nil => simp
  | append_singleton ks k ih =>
    rw [eraseDups_concat]
    split
    · exact ih
    · rename_i hk
      apply List.nodup_append'.2
      refine ⟨ih, List.nodup_singleton k, ?_⟩
      simpa using hk

theorem eraseDups_of_nodup {ks : List κ} (h : ks.Nodup) : ks.eraseDups = ks := by
  induction ks using List.reverseRecOn with
  | nil => simp
  | append_singleton ks k ih =>
    obtain ⟨hks, -, hdisjoint⟩ := List.nodup_append'.1 h
    have hk : k ∉ ks := by simpa using hdisjoint
    rw [eraseDups_concat, if_neg hk, ih hks]

/-- The first occurrences in two rows are those among the first occurrences in each. -/
theorem eraseDups_append_eraseDups (ks ls : List κ) :
    (ks.eraseDups ++ ls.eraseDups).eraseDups = (ks ++ ls).eraseDups := by
  induction ls using List.reverseRecOn with
  | nil =>
    rw [List.eraseDups_nil, List.append_nil, List.append_nil]
    exact eraseDups_of_nodup (nodup_eraseDups ks)
  | append_singleton ls l ih =>
    rw [← List.append_assoc, eraseDups_concat (ks ++ ls), eraseDups_concat ls]
    by_cases hl : l ∈ ls
    · rw [if_pos hl, if_pos (List.mem_append_right ks hl), ih]
    · rw [if_neg hl, ← List.append_assoc, eraseDups_concat, ih]
      simp only [List.mem_append, List.mem_eraseDups]

end FirstOccurrences

namespace Table

variable {κ α γ : Type} [DecidableEq κ]

/-! ## Tables with the same keys -/

omit [DecidableEq κ] in
theorem keys_mk (es : List (κ × α)) : (⟨es⟩ : Table κ α).keys = es.map (·.1) := rfl

theorem valueAt_of_not_mem {k : κ} {es : List (κ × α)} (h : k ∉ es.map (·.1)) :
    valueAt k es = none := by
  cases hv : valueAt k es with
  | none => rfl
  | some v => exact absurd (List.mem_map_of_mem (mem_of_valueAt hv)) h

theorem entries_eq_of_valueAt {es fs : List (κ × α)} (hkeys : es.map (·.1) = fs.map (·.1))
    (hnodup : (es.map (·.1)).Nodup) (h : ∀ k, valueAt k es = valueAt k fs) : es = fs := by
  induction es generalizing fs with
  | nil => exact (List.map_eq_nil_iff.1 hkeys.symm).symm
  | cons e es ih =>
    cases fs with
    | nil => cases hkeys
    | cons f fs =>
      obtain ⟨k, v⟩ := e
      obtain ⟨l, w⟩ := f
      obtain ⟨rfl, hrest⟩ := List.cons.inj hkeys
      obtain ⟨hk, hnodup⟩ := List.nodup_cons.1 hnodup
      have hhead := h k
      simp only [valueAt, if_true] at hhead
      cases hhead
      have htail : ∀ l, valueAt l es = valueAt l fs := by
        intro l
        by_cases hl : k = l
        · -- the key of the first entry has no other
          subst hl
          rw [valueAt_of_not_mem hk, valueAt_of_not_mem (hrest ▸ hk)]
        · have hl' := h l
          simpa only [valueAt, if_neg hl] using hl'
      rw [ih hrest hnodup htail]

/-- Tables with the same keys in the same order are equal if the same is found in them. -/
theorem eq_of_get? {t u : Table κ α} (hkeys : t.keys = u.keys) (hnodup : t.keys.Nodup)
    (h : ∀ k, t.get? k = u.get? k) : t = u := by
  obtain ⟨es⟩ := t
  obtain ⟨fs⟩ := u
  have hentries : es = fs := entries_eq_of_valueAt hkeys hnodup h
  rw [hentries]

/-! ## Merging -/

/-- The first table with the entries of the second joined to its own. A key that the first one does
not have stands for `zero` there. -/
def mergeWith (join : α → α → α) (zero : α) (t u : Table κ α) : Table κ α :=
  u.entries.foldl (fun acc e => acc.alter e.1 fun old => join (old.getD zero) e.2) t

variable {join : α → α → α} {zero : α}

theorem keys_alter (t : Table κ α) (k : κ) (f : Option α → α) :
    (t.alter k f).keys = if k ∈ t.keys then t.keys else t.keys ++ [k] :=
  map_fst_putEntry k _ t.entries

theorem get?_alter (t : Table κ α) (k l : κ) (f : Option α → α) :
    (t.alter k f).get? l = if l = k then some (f (t.get? k)) else t.get? l :=
  get?_put t k l _

theorem keys_mergeWith {t : Table κ α} (ht : t.keys.Nodup) (u : Table κ α) :
    (mergeWith join zero t u).keys = (t.keys ++ u.keys).eraseDups := by
  obtain ⟨es⟩ := u
  rw [mergeWith]
  show (List.foldl _ t es).keys = (t.keys ++ es.map (·.1)).eraseDups
  -- from the end: the last entry finds the keys of all that came in before it
  induction es using List.reverseRecOn with
  | nil =>
    rw [List.map_nil, List.append_nil]
    exact (eraseDups_of_nodup ht).symm
  | append_singleton es e ih =>
    rw [List.foldl_append, List.foldl_cons, List.foldl_nil, keys_alter, ih, List.map_append,
      ← List.append_assoc]
    show _ = (_ ++ [e.1]).eraseDups
    rw [eraseDups_concat]
    simp only [List.mem_eraseDups]

/-- At a key of the second table is its value, joined to the one of the first; nothing else
changes. -/
theorem get?_mergeWith (t : Table κ α) {u : Table κ α} (hu : u.keys.Nodup) (k : κ) :
    (mergeWith join zero t u).get? k =
      match u.get? k with
      | some v => some (join ((t.get? k).getD zero) v)
      | none => t.get? k := by
  obtain ⟨es⟩ := u
  rw [mergeWith]
  show (List.foldl _ t es).get? k = match valueAt k es with | some v => _ | none => _
  rw [keys_mk] at hu
  induction es generalizing t with
  | nil => rfl
  | cons e es ih =>
    obtain ⟨he, hes⟩ := List.nodup_cons.1 hu
    rw [List.foldl_cons, ih _ hes, get?_alter, valueAt]
    by_cases hk : e.1 = k
    · -- no later entry has the key, so the value that was joined here stays
      subst hk
      rw [valueAt_of_not_mem he, if_pos rfl, if_pos rfl]
    · rw [if_neg (Ne.symm hk), if_neg hk]

/-! ## Tallies -/

/-- The tally of some items: their keys in the order in which they first occur, and at each key what
the items with that key come to. -/
def tally (key : γ → κ) (value : List γ → α) (items : List γ) : Table κ α :=
  ⟨(items.map key).eraseDups.map fun k => (k, value (items.filter fun i => key i = k))⟩

example : tally (·.1) (·.map (·.2)) [("b", 1), ("a", 2), ("b", 3)] =
    ⟨[("b", [1, 3]), ("a", [2])]⟩ := by decide

variable {key : γ → κ} {value : List γ → α}

theorem keys_tally (items : List γ) : (tally key value items).keys = (items.map key).eraseDups := by
  rw [tally, keys_mk, List.map_map]
  exact List.map_id _

theorem nodup_keys_tally (items : List γ) : (tally key value items).keys.Nodup := by
  rw [keys_tally]
  exact nodup_eraseDups _

theorem valueAt_map (ks : List κ) (f : κ → α) (k : κ) :
    valueAt k (ks.map fun k => (k, f k)) = if k ∈ ks then some (f k) else none := by
  induction ks with
  | nil => rfl
  | cons l ks ih =>
    rw [List.map_cons, valueAt, ih]
    by_cases hl : l = k
    · simp [hl]
    · simp [hl, Ne.symm hl]

theorem get?_tally (items : List γ) (k : κ) :
    (tally key value items).get? k =
      if k ∈ items.map key then some (value (items.filter fun i => key i = k)) else none := by
  unfold tally get?
  rw [valueAt_map]
  simp only [List.mem_eraseDups]

theorem filter_eq_nil_of_not_mem {items : List γ} {k : κ} (h : k ∉ items.map key) :
    items.filter (fun i => key i = k) = [] := by
  apply List.filter_eq_nil_iff.2
  intro i hi hkey
  exact h (List.mem_map.2 ⟨i, hi, by simpa using hkey⟩)

/-- What is at a key, where no items come to what is not there. -/
theorem getD_get?_tally (items : List γ) (k : κ) :
    ((tally key value items).get? k).getD (value []) =
      value (items.filter fun i => key i = k) := by
  rw [get?_tally]
  split
  · rfl
  · rename_i hk
    rw [filter_eq_nil_of_not_mem hk]
    rfl

/-- One item alone. -/
theorem tally_singleton (i : γ) : tally key value [i] = ofList [(key i, value [i])] := by
  simp [tally, ofList, put, putEntry, empty, List.eraseDups_cons]

/-- Merging the tallies of two rows gives the tally of the rows one after the other. -/
theorem mergeWith_tally (hjoin : ∀ is js, join (value is) (value js) = value (is ++ js))
    (is js : List γ) :
    mergeWith join (value []) (tally key value is) (tally key value js) =
      tally key value (is ++ js) := by
  have hkeys : (mergeWith join (value []) (tally key value is) (tally key value js)).keys =
      (tally key value (is ++ js)).keys := by
    rw [keys_mergeWith (nodup_keys_tally is), keys_tally, keys_tally, keys_tally, List.map_append]
    exact eraseDups_append_eraseDups _ _
  apply eq_of_get? hkeys (hkeys ▸ nodup_keys_tally (is ++ js))
  intro k
  rw [get?_mergeWith _ (nodup_keys_tally js), getD_get?_tally, get?_tally js]
  by_cases hk : k ∈ js.map key
  · have hboth : k ∈ (is ++ js).map key := by
      rw [List.map_append]
      exact List.mem_append_right _ hk
    rw [if_pos hk, get?_tally (is ++ js), if_pos hboth, List.filter_append]
    show some (join _ _) = _
    rw [hjoin]
  · -- the second row has nothing at the key
    rw [if_neg hk, get?_tally, get?_tally, List.filter_append, filter_eq_nil_of_not_mem hk,
      List.append_nil, List.map_append]
    simp only [List.mem_append, hk, or_false]

end Table

end FilterQuery
