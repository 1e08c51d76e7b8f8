/-
# FilterQuery.Table -- tables that keep the order of insertion

A table maps keys to values and lists its entries in the order in which their keys were first
put in. Putting a key again replaces its value and keeps its place, so the answer to "in which
order" is part of the value and never depends on hashing.
-/

namespace FilterQuery

/-- A finite map whose entries are listed in the order in which their keys first came in. -/
structure Table (κ α : Type) where
  entries : List (κ × α)
  deriving Repr, DecidableEq

namespace Table

variable {κ α : Type} [DecidableEq κ]

/-- The table without entries. -/
def empty : Table κ α := ⟨[]⟩

/-- The value of the first entry at `k`. -/
def valueAt (k : κ) : List (κ × α) → Option α
  | [] => none
  | (l, w) :: r => if l = k then some w else valueAt k r

/-- The value at `k`, if there is one. -/
def get? (t : Table κ α) (k : κ) : Option α := valueAt k t.entries

/-- Whether `k` has a value. -/
def contains (t : Table κ α) (k : κ) : Bool := (t.get? k).isSome

/-- The entries with `v` at `k`: in the place of the old value, or at the end. -/
def putEntry (k : κ) (v : α) : List (κ × α) → List (κ × α)
  | [] => [(k, v)]
  | (l, w) :: r => if l = k then (k, v) :: r else (l, w) :: putEntry k v r

/-- The table with `v` at `k`. -/
def put (t : Table κ α) (k : κ) (v : α) : Table κ α := ⟨putEntry k v t.entries⟩

/-- The table without an entry at `k`. -/
def erase (t : Table κ α) (k : κ) : Table κ α := ⟨t.entries.filter fun e => e.1 ≠ k⟩

/-- The table with the value at `k` changed by `f`, or with `f none` put in. -/
def alter (t : Table κ α) (k : κ) (f : Option α → α) : Table κ α := t.put k (f (t.get? k))

/-- The table with the pairs put in, one after the other. -/
def ofList (pairs : List (κ × α)) : Table κ α := pairs.foldl (fun t p => t.put p.1 p.2) empty

/-- The keys, oldest first. -/
def keys (t : Table κ α) : List κ := t.entries.map (·.1)

/-- The values, in the order of their keys. -/
def values (t : Table κ α) : List α := t.entries.map (·.2)

/-- The number of entries. -/
def size (t : Table κ α) : Nat := t.entries.length

@[simp] theorem get?_empty (k : κ) : (empty : Table κ α).get? k = none := rfl

theorem valueAt_putEntry (k l : κ) (v : α) (es : List (κ × α)) :
    valueAt l (putEntry k v es) = if l = k then some v else valueAt l es := by
  induction es with
  | nil => by_cases h : l = k <;> grind [putEntry, valueAt]
  | cons e r ih => grind [putEntry, valueAt]

/-- A put value is found at its key, and nothing else changes. -/
theorem get?_put (t : Table κ α) (k l : κ) (v : α) :
    (t.put k v).get? l = if l = k then some v else t.get? l :=
  valueAt_putEntry k l v t.entries

theorem valueAt_filter (k l : κ) (es : List (κ × α)) :
    valueAt l (es.filter fun e => e.1 ≠ k) = if l = k then none else valueAt l es := by
  induction es with
  | nil => simp [valueAt]
  | cons e r ih => grind [valueAt]

/-- An erased key has no value, and nothing else changes. -/
theorem get?_erase (t : Table κ α) (k l : κ) :
    (t.erase k).get? l = if l = k then none else t.get? l :=
  valueAt_filter k l t.entries

end Table

end FilterQuery
