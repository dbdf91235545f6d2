import ModInstall.Table

/-! # What a table holds

    A table is seen through `find?`, and this is what each operation does to
    it.  A key holds what it was last set to; so a table that is made of
    entries holds the last value of each key (`find?_ofEntries`), and where no
    key occurs twice it has those entries and no others. -/

namespace ModInstall.Table

variable {α : Type} {key k : String} {value : α}

/-! ## Setting a key -/

theorem lookup_cons_eq (k' : String) (v : α) (es : List (String × α)) :
    ((k', v) :: es).lookup k = if k = k' then some v else es.lookup k := by
  rw [List.lookup_cons]
  by_cases h : k = k'
  · simp [h]
  · rw [if_neg h, beq_false_of_ne h]

/-- Setting an entry changes what is found under its key, and nothing else. -/
theorem lookup_setEntry (es : List (String × α)) :
    (setEntry key value es).lookup k = if k = key then some value else es.lookup k := by
  induction es with
  | nil => exact lookup_cons_eq key value []
  | cons e es ih =>
      obtain ⟨k', v⟩ := e
      rw [setEntry]
      by_cases h : k' = key
      · subst h
        rw [if_pos rfl, lookup_cons_eq, lookup_cons_eq]
        by_cases hk : k = k' <;> simp [hk]
      · rw [if_neg h, lookup_cons_eq, lookup_cons_eq, ih]
        -- an entry of another key answers before and after
        by_cases hk : k = k'
        · rw [if_pos hk, if_pos hk, if_neg (hk ▸ h)]
        · rw [if_neg hk, if_neg hk]

/-- A key holds what it was last set to. -/
theorem find?_set (t : Table α) :
    (t.set key value).find? k = if k = key then some value else t.find? k :=
  lookup_setEntry t.entries

/-! ## Taking a key out -/

theorem takeEntry_fst (es : List (String × α)) : (takeEntry key es).1 = es.lookup key := by
  induction es with
  | nil => rfl
  | cons e es ih =>
      obtain ⟨k', v⟩ := e
      rw [takeEntry, lookup_cons_eq]
      by_cases h : k' = key
      · rw [if_pos h, if_pos h.symm]
      · rw [if_neg h, if_neg (Ne.symm h), ← ih]

/-- Keys stand once, so that the first entry of a key is all that has to go. -/
theorem lookup_takeEntry {es : List (String × α)} (h : (es.map Prod.fst).Nodup) :
    (takeEntry key es).2.lookup k = if k = key then none else es.lookup k := by
  induction es with
  | nil => simp [takeEntry]
  | cons e es ih =>
      obtain ⟨k', v⟩ := e
      obtain ⟨hk', hes⟩ := List.nodup_cons.mp h
      rw [takeEntry]
      by_cases hkey : k' = key
      · subst hkey
        rw [if_pos rfl, lookup_cons_eq]
        by_cases hk : k = k'
        · rw [if_pos hk, hk]
          refine List.lookup_eq_none_iff.mpr fun e he => ?_
          exact bne_iff_ne.mpr fun hke => hk' (List.mem_map.mpr ⟨e, he, hke.symm⟩)
        · rw [if_neg hk, if_neg hk]
      · rw [if_neg hkey, lookup_cons_eq, lookup_cons_eq, ih hes]
        -- an entry of another key answers before and after
        by_cases hk : k = k'
        · rw [if_pos hk, if_pos hk, if_neg (hk ▸ hkey)]
        · rw [if_neg hk, if_neg hk]

/-- Taking a key out gives its value, and takes nothing else. -/
theorem take_fst (t : Table α) : (t.take key).1 = t.find? key :=
  takeEntry_fst t.entries

/-- After a key has been taken out nothing is found under it, and all else as
    before. -/
theorem find?_take (t : Table α) :
    (t.take key).2.find? k = if k = key then none else t.find? k :=
  lookup_takeEntry t.nodup

/-! ## Making a table of entries -/

/-- Of several entries for a key the last one counts, and without any what was
    there before. -/
theorem find?_setAll (t : Table α) (es : List (String × α)) :
    (t.setAll es).find? k = (es.reverse.lookup k).or (t.find? k) := by
  induction es generalizing t with
  | nil => rfl
  | cons e es ih =>
      show ((t.set e.1 e.2).setAll es).find? k = _
      rw [ih, find?_set, List.reverse_cons, List.lookup_append, Option.or_assoc, lookup_cons_eq]
      by_cases h : k = e.1
      · rw [if_pos h, if_pos h]
        rfl
      · rw [if_neg h, if_neg h]
        rfl

/-- Of the entries of a key the last one counts. -/
theorem find?_ofEntries (es : List (String × α)) :
    (ofEntries es).find? k = es.reverse.lookup k := by
  rw [ofEntries, find?_setAll]
  exact Option.or_none

/-- A table has just the keys of the entries it was made of. -/
theorem mem_keys_ofEntries {es : List (String × α)} :
    k ∈ (ofEntries es).entries.map Prod.fst ↔ k ∈ es.map Prod.fst := by
  have hall : ∀ t : Table α, k ∈ (t.setAll es).entries.map Prod.fst ↔
      k ∈ t.entries.map Prod.fst ∨ k ∈ es.map Prod.fst := by
    induction es with
    | nil => intro t; simp [setAll]
    | cons e es ih =>
        intro t
        show k ∈ ((t.set e.1 e.2).setAll es).entries.map Prod.fst ↔ _
        rw [ih, set, mem_keys_setEntry, List.map_cons, List.mem_cons, or_assoc]
        exact or_left_comm
  exact (hall empty).trans (or_iff_right List.not_mem_nil)

/-- A new key goes to the end. -/
theorem setEntry_of_not_mem {es : List (String × α)} (h : key ∉ es.map Prod.fst) :
    setEntry key value es = es ++ [(key, value)] := by
  induction es with
  | nil => rfl
  | cons e es ih =>
      rw [List.map_cons, List.mem_cons, not_or] at h
      rw [setEntry, if_neg (Ne.symm h.1), ih h.2]
      rfl

/-- Entries with different keys are kept as they are. -/
theorem entries_ofEntries {es : List (String × α)} (h : (es.map Prod.fst).Nodup) :
    (ofEntries es).entries = es := by
  have hall : ∀ t : Table α, ((t.entries ++ es).map Prod.fst).Nodup →
      (t.setAll es).entries = t.entries ++ es := by
    induction es with
    | nil => intro t _; exact (List.append_nil _).symm
    | cons e es ih =>
        intro t ht
        have hfresh : e.1 ∉ t.entries.map Prod.fst := by
          intro hmem
          rw [List.map_append, List.nodup_append] at ht
          exact ht.2.2 _ hmem _ (List.mem_cons_self ..) rfl
        have hset : (t.set e.1 e.2).entries = t.entries ++ [e] := setEntry_of_not_mem hfresh
        show ((t.set e.1 e.2).setAll es).entries = _
        rw [ih (List.nodup_cons.mp h).2, hset, List.append_assoc]
        · rfl
        · rwa [hset, List.append_assoc]
  exact hall empty h

/-! ## Entries in another order -/

/-- Where no key occurs twice, each is looked up to the same value. -/
theorem lookup_of_perm {es gs : List (String × α)} (h : es.Perm gs)
    (hkeys : (es.map Prod.fst).Nodup) (key : String) : gs.lookup key = es.lookup key := by
  induction h with
  | nil => rfl
  | cons e _ ih =>
      rw [List.lookup_cons, List.lookup_cons, ih (List.nodup_cons.mp hkeys).2]
  | swap e f es =>
      have hne : e.1 ≠ f.1 := by
        intro he
        rw [List.map_cons, List.map_cons, he] at hkeys
        exact (List.nodup_cons.mp hkeys).1 (List.mem_cons_self ..)
      grind
  | trans hef _ ih₁ ih₂ => rw [ih₂ ((hef.map _).nodup_iff.mp hkeys), ih₁ hkeys]

/-- The entries of a table make the same table in any order. -/
theorem find?_ofEntries_of_perm {t : Table α} {es : List (String × α)} (h : t.entries.Perm es)
    (key : String) : (ofEntries es).find? key = t.find? key := by
  rw [find?_ofEntries]
  exact lookup_of_perm (h.trans es.reverse_perm.symm) t.nodup key

end ModInstall.Table
