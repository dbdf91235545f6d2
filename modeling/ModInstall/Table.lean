/-! # Tables

    A table holds at most one value for a key.  Its entries stand in the order
    in which their keys were first set; setting a key again changes the value
    in place.  Everything else about a table is seen through `find?`. -/

namespace ModInstall

/-- A finite map from strings, in the order of first insertion. -/
structure Table (α : Type) where
  entries : List (String × α)
  nodup   : (entries.map Prod.fst).Nodup

namespace Table

variable {α : Type}

/-- Sets a key among some entries. -/
def setEntry (key : String) (value : α) : List (String × α) → List (String × α)
  | []          => [(key, value)]
  | (k, v) :: r => if k = key then (key, value) :: r else (k, v) :: setEntry key value r

theorem mem_keys_setEntry {key k : String} {value : α} {es : List (String × α)} :
    k ∈ (setEntry key value es).map Prod.fst ↔ k = key ∨ k ∈ es.map Prod.fst := by
  induction es with
  | nil => simp [setEntry]
  | cons e r ih =>
      rw [setEntry]
      split
      · next h => simp [h]
      · simp only [List.map_cons, List.mem_cons, ih]
        exact or_left_comm

theorem nodup_setEntry {key : String} {value : α} {es : List (String × α)}
    (h : (es.map Prod.fst).Nodup) : ((setEntry key value es).map Prod.fst).Nodup := by
  induction es with
  | nil => simp [setEntry]
  | cons e r ih =>
      rw [List.map_cons, List.nodup_cons] at h
      rw [setEntry]
      split
      · next hk =>
          rw [List.map_cons, List.nodup_cons]
          exact ⟨hk ▸ h.1, h.2⟩
      · next hk =>
          rw [List.map_cons, List.nodup_cons, mem_keys_setEntry]
          exact ⟨fun hm => hm.elim hk h.1, ih h.2⟩

/-- Takes a key out of some entries: the value that it had, and the entries
    that are left. -/
def takeEntry (key : String) : List (String × α) → Option α × List (String × α)
  | []          => (none, [])
  | (k, v) :: r =>
      if k = key then (some v, r) else ((takeEntry key r).1, (k, v) :: (takeEntry key r).2)

theorem takeEntry_sublist (key : String) (es : List (String × α)) :
    (takeEntry key es).2.Sublist es := by
  induction es with
  | nil => exact .slnil
  | cons e r ih =>
      rw [takeEntry]
      split
      · exact List.sublist_cons_self ..
      · exact ih.cons_cons e

/-- The table without entries. -/
def empty : Table α := ⟨[], List.nodup_nil⟩

/-- The value of a key. -/
def find? (t : Table α) (key : String) : Option α :=
  t.entries.lookup key

/-- Gives a key a value. -/
def set (t : Table α) (key : String) (value : α) : Table α :=
  ⟨setEntry key value t.entries, nodup_setEntry t.nodup⟩

/-- Takes a key out: the value that it had, and the table that is left. -/
def take (t : Table α) (key : String) : Option α × Table α :=
  ((takeEntry key t.entries).1,
    ⟨(takeEntry key t.entries).2, t.nodup.sublist ((takeEntry_sublist key t.entries).map _)⟩)

/-- Sets some keys one after the other, so that the last value of a key
    counts. -/
def setAll (t : Table α) (es : List (String × α)) : Table α :=
  es.foldl (fun t e => t.set e.1 e.2) t

/-- The table of some entries, the last value of a key counting. -/
def ofEntries (es : List (String × α)) : Table α :=
  empty.setAll es

/-- A way to go through the entries of a map that has no order of its own. -/
structure Order (α : Type) where
  arrange : List (String × α) → List (String × α)
  perm    : ∀ es, (arrange es).Perm es

/-- Entries in the order in which their keys were first set. -/
def Order.firstSet : Order α := ⟨id, fun es => .refl es⟩

end Table

end ModInstall
