/-
# FilterQuery.Proofs.Json.Rereading -- a written tree is read back

The machine takes the marks of a tree where a value may stand as it takes a value at once, whatever
containers are open there and whatever marks follow (`Json.Takes`). Inside an array or an object it
comes to a separator after each part, with the parts so far kept the nearest first; so the law for
further parts is told of these, and the mark of the end puts them the right way round.

With what is known of cutting this reads a written tree back from its text (`Json.read?_write`).
-/

import FilterQuery.Proofs.Json.Cutting
import FilterQuery.Proofs.Outcome

namespace FilterQuery

namespace Json

open Machine

/-- Where a value may stand, the machine takes the marks of the tree as it takes the tree. -/
def Takes (v : Json) : Prop :=
  ∀ (cs : List Container) (e : Expecting) (ks : List Mark), e = .value ∨ e = .firstItem →
    (v.toMarks ++ ks).foldlM step ⟨e, cs⟩ = (complete v cs).bind fun m => ks.foldlM step m

/-- A value that is a mark of its own is taken at once. -/
theorem takes_of_toMarks {v : Json} (h : v.toMarks = [.value v]) : v.Takes := by
  rintro cs e ks (rfl | rfl) <;> rw [h] <;> rfl

/-- Further items are put behind those that there are, and the end closes the array. -/
theorem foldlM_itemMarks {items : List Json} (h : ∀ v ∈ items, v.Takes) (cs : List Container)
    (ks : List Mark) (done : List Json) :
    (itemMarks items ++ .endArray :: ks).foldlM step ⟨.separator, .array done :: cs⟩ =
      (complete (.array (done.reverse ++ items)) cs).bind fun m => ks.foldlM step m := by
  induction items generalizing done with
  | nil =>
    rw [List.append_nil]
    rfl
  | cons v r ih =>
    have hv := h v List.mem_cons_self (.array done :: cs) .value
      (itemMarks r ++ .endArray :: ks) (.inl rfl)
    have hr := ih (fun w hw => h w (List.mem_cons_of_mem v hw)) (v :: done)
    simp only [itemMarks, List.cons_append, List.append_assoc]
    show (v.toMarks ++ (itemMarks r ++ .endArray :: ks)).foldlM step _ = _
    rw [hv]
    refine hr.trans ?_
    rw [List.reverse_cons, List.append_assoc]
    rfl

/-- The field as it is kept in an open object. -/
def known (f : String × Json) : Option String × Json := (some f.1, f.2)

theorem closeObject_known (done : List (String × Json)) :
    closeObject (done.map known) = .object done.reverse := by
  rw [closeObject, ← List.map_reverse, mapM_map_eq_some]
  intro f
  rfl

/-- Further fields are put behind those that there are, and the end closes the object. -/
theorem foldlM_fieldMarks {fields : List (String × Json)} (h : ∀ f ∈ fields, f.2.Takes)
    (cs : List Container) (ks : List Mark) (done : List (String × Json)) :
    (fieldMarks fields ++ .endObject :: ks).foldlM step
        ⟨.separator, .object (done.map known) :: cs⟩ =
      (complete (.object (done.reverse ++ fields)) cs).bind fun m => ks.foldlM step m := by
  induction fields generalizing done with
  | nil =>
    rw [List.append_nil, ← closeObject_known]
    rfl
  | cons f r ih =>
    obtain ⟨k, v⟩ := f
    have hv := h (k, v) List.mem_cons_self (.named (done.map known) (some k) :: cs) .value
      (fieldMarks r ++ .endObject :: ks) (.inl rfl)
    have hr := ih (fun w hw => h w (List.mem_cons_of_mem _ hw)) ((k, v) :: done)
    simp only [fieldMarks, List.cons_append, List.append_assoc]
    show (v.toMarks ++ (fieldMarks r ++ .endObject :: ks)).foldlM step _ = _
    rw [hv]
    refine hr.trans ?_
    rw [List.reverse_cons, List.append_assoc]
    rfl

/-- The machine takes the marks of a tree as it takes the tree. -/
theorem Written.takes {v : Json} (h : v.Written) : v.Takes := by
  induction h with
  | null => exact takes_of_toMarks rfl
  | bool b => exact takes_of_toMarks rfl
  | int n => exact takes_of_toMarks rfl
  | string s => exact takes_of_toMarks rfl
  | @array items _ ih =>
    intro cs e ks he
    cases items with
    | nil => rcases he with rfl | rfl <;> rfl
    | cons v r =>
      have hv := ih v List.mem_cons_self (.array [] :: cs) .firstItem
        (itemMarks r ++ .endArray :: ks) (.inr rfl)
      have hr := foldlM_itemMarks (fun w hw => ih w (List.mem_cons_of_mem v hw)) cs ks [v]
      simp only [toMarks, List.cons_append, List.append_assoc, List.nil_append]
      -- the first item may stand behind the bracket, where also the end of the array may
      have hbegin : step ⟨e, cs⟩ .beginArray = some ⟨.firstItem, .array [] :: cs⟩ := by
        rcases he with rfl | rfl <;> rfl
      rw [List.foldlM_cons, hbegin]
      show (v.toMarks ++ (itemMarks r ++ .endArray :: ks)).foldlM step _ = _
      rw [hv]
      exact hr
  | @object fields _ ih =>
    intro cs e ks he
    cases fields with
    | nil => rcases he with rfl | rfl <;> rfl
    | cons f r =>
      obtain ⟨k, v⟩ := f
      have hv := ih (k, v) List.mem_cons_self (.named [] (some k) :: cs) .value
        (fieldMarks r ++ .endObject :: ks) (.inl rfl)
      have hr := foldlM_fieldMarks (fun w hw => ih w (List.mem_cons_of_mem _ hw)) cs ks [(k, v)]
      simp only [toMarks, List.cons_append, List.append_assoc, List.nil_append]
      have hbegin : step ⟨e, cs⟩ .beginObject = some ⟨.firstName, .object [] :: cs⟩ := by
        rcases he with rfl | rfl <;> rfl
      rw [List.foldlM_cons, hbegin]
      show (v.toMarks ++ (fieldMarks r ++ .endObject :: ks)).foldlM step _ = _
      rw [hv]
      exact hr

/-- A tree is read back from its text, if that says all of it. -/
theorem read?_write {v : Json} (h : v.Written) : read? v.write = some v := by
  have hcut : Cut v.chars v.toMarks := by
    have hall := h.cuts [] [] .nil .nil
    rwa [List.append_nil, List.append_nil] at hall
  have htakes := h.takes [] .value [] (.inl rfl)
  rw [List.append_nil] at htakes
  have hmarks : Json.marks v.chars.length v.chars = some v.toMarks := hcut _ (Nat.le_refl _)
  have hrun : v.toMarks.foldlM step {} = some ⟨.nothing v, []⟩ := htakes
  rw [read?, write]
  simp only [String.toList_ofList, hmarks, Option.bind_eq_bind, Option.bind_some, hrun]
  rfl

end Json

end FilterQuery
