/-
# FilterQuery.Proofs.Table.Entries -- what the entries of a table say

A table is read by looking for the first entry at a key. Putting and erasing keep the keys apart,
and in a table with its keys apart there is only one entry to find: the entries of the table and
what is found at its keys are the same thing told twice (`mem_entries_iff`).
-/

import FilterQuery.Table
import Mathlib.Data.List.Nodup

namespace FilterQuery.Table

variable {κ α : Type} [DecidableEq κ]

/-! ## Entries and what is found -/

theorem mem_of_valueAt {k : κ} {v : α} {es : List (κ × α)} (h : valueAt k es = some v) :
    (k, v) ∈ es := by
  induction es with
  | nil => cases h
  | cons e rest ih =>
    rw [valueAt] at h
    split at h
    · next hkey =>
      cases h
      exact hkey ▸ List.mem_cons_self
    · exact List.mem_cons_of_mem _ (ih h)

theorem valueAt_of_mem {k : κ} {v : α} {es : List (κ × α)} (hkeys : (es.map (·.1)).Nodup)
    (h : (k, v) ∈ es) : valueAt k es = some v := by
  induction es with
  | nil => cases h
  | cons e rest ih =>
    rw [List.map_cons, List.nodup_cons] at hkeys
    rw [valueAt]
    rcases List.mem_cons.1 h with rfl | hrest
    · exact if_pos rfl
    · have hne : e.1 ≠ k := fun heq => hkeys.1 (heq ▸ List.mem_map_of_mem hrest)
      rw [if_neg hne]
      exact ih hkeys.2 hrest

/-- With the keys apart, an entry is what is found at its key. -/
theorem mem_entries_iff {t : Table κ α} (hkeys : t.keys.Nodup) (k : κ) (v : α) :
    (k, v) ∈ t.entries ↔ t.get? k = some v :=
  ⟨valueAt_of_mem hkeys, mem_of_valueAt⟩

/-! ## Keys stay apart -/

theorem map_fst_putEntry (k : κ) (v : α) (es : List (κ × α)) :
    (putEntry k v es).map (·.1) =
      if k ∈ es.map (·.1) then es.map (·.1) else es.map (·.1) ++ [k] := by
  induction es with
  | nil => rfl
  | cons e rest ih =>
    rw [putEntry]
    split
    · next hkey => simp [hkey]
    · next hkey =>
      simp only [List.map_cons, ih, List.mem_cons, Ne.symm hkey, false_or]
      split <;> rfl

omit [DecidableEq κ] in
theorem nodup_keys_empty : (empty : Table κ α).keys.Nodup := List.nodup_nil

theorem nodup_keys_put {t : Table κ α} (hkeys : t.keys.Nodup) (k : κ) (v : α) :
    (t.put k v).keys.Nodup := by
  simp only [keys, put, map_fst_putEntry]
  split
  · exact hkeys
  · next hnew => exact List.nodup_append'.2 ⟨hkeys, List.nodup_singleton k, by simpa using hnew⟩

theorem nodup_keys_erase {t : Table κ α} (hkeys : t.keys.Nodup) (k : κ) :
    (t.erase k).keys.Nodup :=
  hkeys.sublist (List.filter_sublist.map _)

theorem nodup_keys_foldl_put (pairs : List (κ × α)) {t : Table κ α} (hkeys : t.keys.Nodup) :
    (pairs.foldl (fun t p => t.put p.1 p.2) t).keys.Nodup := by
  induction pairs generalizing t with
  | nil => exact hkeys
  | cons p rest ih => exact ih (nodup_keys_put hkeys p.1 p.2)

theorem nodup_keys_ofList (pairs : List (κ × α)) : (ofList pairs).keys.Nodup :=
  nodup_keys_foldl_put pairs nodup_keys_empty

/-! ## Putting the entries in again -/

/-- A value comes last at a new key. -/
theorem putEntry_of_not_mem {k : κ} {es : List (κ × α)} (h : k ∉ es.map (·.1)) (v : α) :
    putEntry k v es = es ++ [(k, v)] := by
  induction es with
  | nil => rfl
  | cons e rest ih =>
    rw [List.map_cons, List.mem_cons, not_or] at h
    rw [putEntry, if_neg (Ne.symm h.1), ih h.2, List.cons_append]

theorem foldl_put_append (before after : List (κ × α))
    (hkeys : ((before ++ after).map (·.1)).Nodup) :
    after.foldl (fun t p => t.put p.1 p.2) (⟨before⟩ : Table κ α) = ⟨before ++ after⟩ := by
  induction after generalizing before with
  | nil => rw [List.append_nil, List.foldl_nil]
  | cons p rest ih =>
    have hnew : p.1 ∉ before.map (·.1) := by
      intro hold
      rw [List.map_append, List.nodup_append'] at hkeys
      exact hkeys.2.2 hold (List.mem_map_of_mem List.mem_cons_self)
    have hput : (⟨before⟩ : Table κ α).put p.1 p.2 = ⟨before ++ [p]⟩ := by
      rw [put, putEntry_of_not_mem hnew]
    rw [List.append_cons] at hkeys
    rw [List.foldl_cons, hput, ih _ hkeys, ← List.append_cons]

/-- A table with its keys apart is the table of its entries, in the same order. -/
theorem ofList_entries {t : Table κ α} (hkeys : t.keys.Nodup) : ofList t.entries = t :=
  foldl_put_append [] t.entries hkeys

/-! ## One value under several keys -/

/-- A value put under several keys is found at these, and nothing else changes. -/
theorem get?_foldl_put (ks : List κ) (v : α) (t : Table κ α) (l : κ) :
    (ks.foldl (fun t k => t.put k v) t).get? l = if l ∈ ks then some v else t.get? l := by
  induction ks generalizing t with
  | nil => simp
  | cons k rest ih =>
    rw [List.foldl_cons, ih, get?_put]
    by_cases hrest : l ∈ rest
    · simp [hrest]
    · simp [hrest]

end FilterQuery.Table
