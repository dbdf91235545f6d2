import Mathlib.Logic.Basic
import ModInstall.Condition.Json
import ModInstall.Proofs.Condition.Tree
import ModInstall.Proofs.Json.Decoding
import ModInstall.Proofs.Json.Reordering
import ModInstall.Proofs.Names
import ModInstall.Proofs.Table
import ModInstall.Proofs.Text.Lowercase
import ModInstall.Proofs.Traversal
import ModInstall.Proofs.Version

/-! # Conditions in JSON read back

    A condition that has been written is read back with the names of its files
    in lower case and nothing else changed, in whatever order the keys of its
    objects come.  A predicate is told from a group by its key `predicate`,
    which no group has; so an atom is never read as a group, nor a group as an
    atom.  The one thing that does not come back is a version without
    components, for it has no text of its own. -/

namespace ModInstall

open Json (Decoder Reads Exact Reordered Rigid)

/-! ## Predicates -/

/-- A version with components is read back from its text. -/
theorem Version.reads {v : Version} (h : v.components ≠ []) :
    Reads Version.decoder v.toJson v :=
  Reads.parsed (parse?_display h)

namespace Predicate

/-- A predicate with the name of its file in lower case. -/
def lowered : Predicate → Predicate
  | .file name state => .file (Text.lowercase name) state
  | p => p

/-- A predicate whose version, if it asks for one, has a text. -/
def HasText : Predicate → Prop
  | .gameVersion wanted | .managerVersion wanted => wanted.components ≠ []
  | _ => True

/-- A predicate without file names in upper case, and whose version has a
    text: it is what it reads back to. -/
def Canonical (p : Predicate) : Prop :=
  p.HasText ∧ p.lowered = p

theorem reads_state (s : FileState) : Reads stateDecoder (.string s.name) s :=
  fun _ => (FileState.ofName?_eq_some_iff.mpr rfl).trans (if_pos (Nat.zero_le _)).symm

/-- Attributes are read back in their order, repeated names included. -/
theorem reads_attributes (pairs : List (String × String)) :
    Reads (Decoder.list (Decoder.pair Decoder.string Decoder.string)) (Json.ofPairs pairs) pairs :=
  Reads.list fun p _ => Reads.pair (Reads.string p.1) (Reads.string p.2)

/-- An object that has been taken in as a whole leaves all the room it needs. -/
theorem fields_bind {known : List String} {es : List (String × Json)}
    {build : Json.Fields → Option Predicate} {p : Predicate}
    (h : Reads (fun room v => (Json.fields known room v).bind build) (.object es) p) :
    (Json.fields known (Json.nesting (.object es)) (.object es)).bind build = some p :=
  (h _).trans (if_pos (Nat.le_refl _))

/-- A predicate is told by its tag and read back. -/
theorem ofJson?_toJson {tag? : Json → Option String} (htag : ∀ s, tag? (.string s) = some s)
    {p : Predicate} (h : p.HasText) : ofJson? tag? p.toJson = some p.lowered := by
  cases p with
  | gameVersion wanted =>
      show (tag? (.string "GameVersionAtLeast")).bind _ = _
      rw [htag, Option.bind_some]
      simp only [ofTagged?, if_true, Option.bind_eq_bind]
      refine fields_bind (Reads.object rfl ?_)
      refine (Version.reads h).field rfl ?_
      exact .done _
  | managerVersion wanted =>
      show (tag? (.string "ManagerVersionAtLeast")).bind _ = _
      rw [htag, Option.bind_some]
      simp only [ofTagged?, String.reduceEq, if_true, if_false, Option.bind_eq_bind]
      refine fields_bind (Reads.object rfl ?_)
      refine (Version.reads h).field rfl ?_
      exact .done _
  | file name state =>
      show (tag? (.string "FileState")).bind _ = _
      rw [htag, Option.bind_some]
      simp only [ofTagged?, String.reduceEq, if_true, if_false, Option.bind_eq_bind]
      refine fields_bind (Reads.object rfl ?_)
      refine (Reads.string name).field rfl ?_
      refine (reads_state state).field rfl ?_
      exact .done _
  | flag name value =>
      show (tag? (.string "FlagEquals")).bind _ = _
      rw [htag, Option.bind_some]
      simp only [ofTagged?, String.reduceEq, if_true, if_false, Option.bind_eq_bind]
      refine fields_bind (Reads.object rfl ?_)
      refine (Reads.string name).field rfl ?_
      refine (Reads.string value).field rfl ?_
      exact .done _
  | foreign test =>
      show (tag? (.string "Extension")).bind _ = _
      rw [htag, Option.bind_some]
      simp only [ofTagged?, String.reduceEq, if_true, if_false, Option.bind_eq_bind]
      refine fields_bind (Reads.object rfl ?_)
      -- the attributes are read first but not written first
      have hlevels : Json.nestingEntries [("predicate", .string "Extension"),
          ("kind", .string test.kind), ("attributes", Json.ofPairs test.attributes),
          ("text", .string test.text)]
            = max (Json.ofPairs test.attributes).nesting (max 0 (max 0 0)) := by
        simp [Json.nestingEntries, Json.nesting]
      rw [hlevels]
      refine (reads_attributes test.attributes).field rfl ?_
      refine (Reads.string test.kind).field rfl ?_
      refine (Reads.string test.text).field rfl ?_
      exact .done _

/-- A predicate is written in strings alone. -/
theorem exact_toJson (p : Predicate) : Exact p.toJson := by
  cases p with
  | foreign test =>
      refine .object ?_
      have hpairs : Exact (Json.ofPairs test.attributes) := by
        refine .array fun v hv => ?_
        obtain ⟨pair, -, rfl⟩ := List.mem_map.mp hv
        exact .array (by simp [Exact.string])
      simp [hpairs, Exact.string]
  | gameVersion wanted | managerVersion wanted =>
      exact .object (by simp [Exact.string, Version.toJson])
  | file name state | flag name value => exact .object (by simp [Exact.string])

/-- A predicate nests one level, or three where it holds attributes. -/
theorem nesting_toJson (p : Predicate) :
    1 ≤ p.toJson.nesting ∧ p.toJson.nesting ≤ 3 ∧
      ((∀ t, p ≠ .foreign t) → p.toJson.nesting = 1) := by
  cases p with
  | foreign test =>
      have hpairs : (Json.ofPairs test.attributes).nesting ≤ 2 := by
        rw [Json.ofPairs, Json.nesting]
        have : Json.nestingItems (test.attributes.map fun p => .array [.string p.1, .string p.2])
            ≤ 1 := by
          refine Json.nestingItems_le_iff.mpr fun v hv => ?_
          obtain ⟨pair, -, rfl⟩ := List.mem_map.mp hv
          exact Nat.le_refl _
        omega
      simp only [toJson, Json.nesting, Json.nestingEntries]
      refine ⟨by omega, by omega, fun h => absurd rfl (h test)⟩
  | gameVersion | managerVersion | file | flag =>
      simp [toJson, Version.toJson, Json.nesting, Json.nestingEntries]

/-! ### The order of keys -/

/-- A predicate is an object in which no key occurs twice and no value holds
    keys of its own. -/
theorem exists_entries (p : Predicate) :
    ∃ es, p.toJson = .object es ∧ (es.map Prod.fst).Nodup ∧ ∀ e ∈ es, Rigid e.2 := by
  cases p with
  | gameVersion wanted | managerVersion wanted | file name state | flag name value =>
      exact ⟨_, rfl, by simp, by simp [Rigid.string, Version.toJson]⟩
  | foreign test =>
      have hpairs : Rigid (Json.ofPairs test.attributes) := by
        refine .array (List.forall_mem_map.mpr fun pair _ => .array ?_)
        simp [Rigid.string]
      exact ⟨_, rfl, by simp, by simp [Rigid.string, hpairs]⟩

variable {es gs : List (String × Json)}

/-- Known keys that occur once each are read with room for just the nesting of
    the object. -/
theorem fields_nesting (known : List String) (es : List (String × Json)) :
    Json.fields known (Json.nesting (.object es)) (.object es)
      = if Json.occurOnce known es then some ⟨Json.nestingEntries es, es⟩ else none := by
  rw [Json.nesting, Nat.add_comm]
  rfl

/-- A predicate is read by its keys, whatever their order. -/
theorem ofJson?_of_perm (h : es.Perm gs) (hkeys : (es.map Prod.fst).Nodup)
    (tag? : Json → Option String) : ofJson? tag? (.object gs) = ofJson? tag? (.object es) := by
  have hget : ∀ {α : Type} (key : String) (d : Decoder α) (room : Nat),
      Json.Fields.get ⟨room, gs⟩ key d = Json.Fields.get ⟨room, es⟩ key d := by
    intro α key d room
    rw [Json.Fields.get, Json.Fields.get, Table.lookup_of_perm h hkeys]
  have hfields : ∀ {α : Type} (known : List String) (build : Json.Fields → Option α),
      (∀ room, build ⟨room, gs⟩ = build ⟨room, es⟩) →
      (Json.fields known (Json.nesting (.object gs)) (.object gs)).bind build
        = (Json.fields known (Json.nesting (.object es)) (.object es)).bind build := by
    intro α known build hbuild
    rw [fields_nesting, fields_nesting, Json.occurOnce_of_perm h, Json.nestingEntries_of_perm h]
    split
    · exact hbuild _
    · rfl
  have htagged : ∀ tag, ofTagged? tag (.object gs) = ofTagged? tag (.object es) := by
    intro tag
    simp only [ofTagged?]
    split_ifs
    -- one case for each tag, and one for no tag
    iterate 5 exact hfields _ _ fun room => by simp only [hget]
    rfl
  simp only [ofJson?, Table.lookup_of_perm h hkeys, htagged]

/-- However its keys are ordered, a predicate is told by its tag and read
    back. -/
theorem ofJson?_of_reordered {tag? : Json → Option String}
    (htag : ∀ s, tag? (.string s) = some s) {p : Predicate} (h : p.HasText) {v : Json}
    (hv : Reordered p.toJson v) : ofJson? tag? v = some p.lowered := by
  obtain ⟨es, hes, hkeys, hrigid⟩ := p.exists_entries
  rw [hes] at hv
  obtain ⟨gs, rfl, hperm⟩ := Json.exists_perm_of_rigid hv hrigid
  rw [ofJson?_of_perm hperm hkeys, ← hes]
  exact ofJson?_toJson htag h

end Predicate

/-! ## Conditions -/

namespace Condition

mutual

/-- A condition with the names of its files in lower case. -/
def lowered : Condition → Condition
  | .atom p => .atom p.lowered
  | .group o cs => .group o (loweredList cs)

/-- Some conditions with the names of their files in lower case. -/
def loweredList : List Condition → List Condition
  | [] => []
  | c :: cs => lowered c :: loweredList cs

end

theorem loweredList_eq_map (cs : List Condition) : loweredList cs = cs.map lowered := by
  induction cs with
  | nil => rfl
  | cons c cs ih => rw [loweredList, ih, List.map_cons]

theorem toJsonList_eq_map (cs : List Condition) : toJsonList cs = cs.map toJson := by
  induction cs with
  | nil => rfl
  | cons c cs ih => rw [toJsonList, ih, List.map_cons]

/-- A condition whose file names are all in lower case is left as it is. -/
theorem lowered_eq_self {c : Condition} (h : ∀ p ∈ c.atoms, p.lowered = p) : c.lowered = c := by
  induction c with
  | atom p => rw [lowered, h p (List.mem_singleton.mpr rfl)]
  | group o cs ih =>
      have hmembers : cs.map lowered = cs.map id := List.map_congr_left fun c hc =>
        ih c hc fun p hp => h p (mem_atomsList.mpr ⟨c, hc, hp⟩)
      rw [lowered, loweredList_eq_map, hmembers, List.map_id]

theorem exact_toJson (c : Condition) : Exact c.toJson := by
  induction c with
  | atom p => exact p.exact_toJson
  | group o cs ih =>
      have hmembers : Exact (.array (toJsonList cs)) := by
        rw [toJsonList_eq_map]
        refine .array fun v hv => ?_
        obtain ⟨c, hc, rfl⟩ := List.mem_map.mp hv
        exact ih c hc
      exact .object (by simp [Exact.string, hmembers])

/-- Of the members of an object, only what stands at their key is read. -/
theorem membersIn?_eq_lookup (es : List (String × Json)) :
    membersIn? es = (es.lookup "dependencies").bind fun
      | .array vs => listOfJson? vs
      | _ => none := by
  induction es with
  | nil => rfl
  | cons e es ih =>
      obtain ⟨key, v⟩ := e
      by_cases hk : key = "dependencies"
      · subst hk
        cases v <;> simp [membersIn?]
      · have hne : ("dependencies" == key) = false := beq_false_of_ne fun he => hk he.symm
        cases v <;> simp [membersIn?, List.lookup_cons, hk, hne, ih]

/-- The entries of a group, given its members. -/
def groupEntries (o : Operator) (vs : List Json) : List (String × Json) :=
  [("operator", .string o.name), ("dependencies", .array vs)]

/-- A group in another order of keys has its entries in another order, and
    among them its members in other orders of theirs. -/
theorem exists_entries_of_reordered {o : Operator} {cs : List Condition} {v : Json}
    (h : Reordered (toJson (.group o cs)) v) :
    ∃ vs gs, v = .object gs ∧ (groupEntries o vs).Perm gs ∧
      List.Forall₂ (fun c w => Reordered (toJson c) w) cs vs := by
  rw [toJson, toJsonList_eq_map] at h
  obtain ⟨fs, gs, rfl, hkeys, hvalues, hperm⟩ := Json.reordered_object_iff.mp h
  match fs, hkeys, hvalues with
  | [(_, v), (_, w)], hkeys, .cons hv (.cons hw .nil) =>
      obtain ⟨rfl, rfl⟩ : "operator" = _ ∧ "dependencies" = _ := by simpa using hkeys
      obtain rfl := Rigid.string _ _ hv
      obtain ⟨vs, rfl, hvs⟩ := Json.reordered_array_iff.mp hw
      exact ⟨vs, gs, rfl, hperm, List.forall₂_map_left_iff.mp hvs⟩

theorem groupEntries_keys (o : Operator) (vs : List Json) :
    ((groupEntries o vs).map Prod.fst).Nodup := by
  simp [groupEntries]

/-- A list is read if each of its members is. -/
theorem listOfJson?_eq_some {cs : List Condition} {vs : List Json}
    (h : List.Forall₂ (fun c v => ofJson? v = some (lowered c)) cs vs) :
    listOfJson? vs = some (loweredList cs) := by
  induction h with
  | nil => rfl
  | cons hv _ ih => rw [listOfJson?, hv, ih, loweredList]

/-- **A condition is read back** with its file names in lower case, however its
    keys are ordered and whatever its depth. -/
theorem ofJson?_of_reordered {c : Condition} (h : ∀ p ∈ c.atoms, p.HasText) {v : Json}
    (hv : Reordered c.toJson v) : ofJson? v = some c.lowered := by
  induction c generalizing v with
  | atom p =>
      rw [toJson] at hv
      obtain ⟨es, hes, -, hrigid⟩ := p.exists_entries
      have hread : Predicate.ofJson? Predicate.tagOrNumber? v = some p.lowered :=
        Predicate.ofJson?_of_reordered (fun _ => rfl) (h p (List.mem_singleton.mpr rfl)) hv
      rw [hes] at hv
      obtain ⟨gs, rfl, -⟩ := Json.exists_perm_of_rigid hv hrigid
      rw [ofJson?, hread]
      rfl
  | group o cs ih =>
      obtain ⟨vs, gs, rfl, hperm, hvs⟩ := exists_entries_of_reordered hv
      have hlookup := Table.lookup_of_perm hperm (groupEntries_keys o vs)
      have hmembers : listOfJson? vs = some (loweredList cs) := by
        have hread : ∀ c ∈ cs, ∀ w, Reordered (toJson c) w → ofJson? w = some (lowered c) :=
          fun c hc w hw => ih c hc (fun p hp => h p (mem_atomsList.mpr ⟨c, hc, hp⟩)) hw
        exact listOfJson?_eq_some (forall₂_imp_mem hvs fun c hc w _ hw => hread c hc w hw)
      have hin : membersIn? gs = some (loweredList cs) := by
        rw [membersIn?_eq_lookup, hlookup]
        exact hmembers
      -- no key of a group tells a predicate
      have hpredicate : Predicate.ofJson? Predicate.tagOrNumber? (.object gs) = none := by
        rw [Predicate.ofJson?, hlookup]
        rfl
      have honce : Json.occurOnce ["operator", "dependencies"] gs = true := by
        rw [Json.occurOnce_of_perm hperm]
        rfl
      rw [ofJson?, hin, hpredicate, operatorIn?, hlookup]
      simp only [honce, if_true]
      cases o <;> rfl

theorem isReadable_of_reordered {c : Condition} {v : Json} (hv : Reordered c.toJson v) :
    v.isReadable = true := by
  induction c generalizing v with
  | atom p =>
      rw [toJson] at hv
      obtain ⟨es, hes, -, hrigid⟩ := p.exists_entries
      have hreadable : Json.isReadable (.object es) = true := hes ▸ p.exact_toJson.isReadable
      rw [hes] at hv
      obtain ⟨gs, rfl, hperm⟩ := Json.exists_perm_of_rigid hv hrigid
      exact Json.isReadable_of_perm hperm hreadable
  | group o cs ih =>
      obtain ⟨vs, gs, rfl, hperm, hvs⟩ := exists_entries_of_reordered hv
      have hreadable : ∀ v ∈ vs, v.isReadable = true := by
        intro v hv
        obtain ⟨c, hc, hcv⟩ := exists_mem_left_of_forall₂ hvs hv
        exact ih c hc hcv
      refine Json.isReadable_of_perm hperm (Json.entriesReadable_iff.mpr ?_)
      simpa [groupEntries, Json.isReadable] using Json.areReadable_iff.mpr hreadable

/-- A condition is read as far as there is room for all of it. -/
theorem reads_of_reordered {c : Condition} (h : ∀ p ∈ c.atoms, p.HasText) {v : Json}
    (hv : Reordered c.toJson v) : Reads decoder v c.lowered := by
  intro room
  rw [decoder, Json.fits, isReadable_of_reordered hv, ofJson?_of_reordered h hv, Bool.and_true]
  simp only [decide_eq_true_eq]

theorem nestingItems_toJsonList_le_iff {n : Nat} {cs : List Condition} :
    Json.nestingItems (toJsonList cs) ≤ n ↔ ∀ c ∈ cs, c.toJson.nesting ≤ n := by
  rw [toJsonList_eq_map, Json.nestingItems_le_iff, List.forall_mem_map]

/-- A group takes two levels more than its members: its own object and the
    array that holds them. -/
theorem nesting_toJson_group (o : Operator) (cs : List Condition) :
    (toJson (.group o cs)).nesting = 2 + Json.nestingItems (toJsonList cs) := by
  simp only [toJson, Json.nesting, Json.nestingEntries]
  omega

end Condition

/-! ## Requirements -/

namespace Requirement

/-- A requirement with the names of its files in lower case. -/
def lowered (q : Requirement) : Requirement :=
  ⟨q.operator, q.members.map Condition.lowered⟩

/-- **A requirement is read back** with its file names in lower case, however
    its keys are ordered and as far as there is room for all of it. -/
theorem reads_of_reordered {q : Requirement} (h : ∀ p ∈ q.atoms, p.HasText) {v : Json}
    (hv : Reordered q.toJson v) : Reads decoder v q.lowered := by
  obtain ⟨o, ms⟩ := q
  obtain ⟨vs, gs, rfl, hperm, hvs⟩ := Condition.exists_entries_of_reordered hv
  have hlookup := Table.lookup_of_perm hperm (Condition.groupEntries_keys o vs)
  have hmembers : List.Forall₂ (Reads Condition.decoder) vs (ms.map Condition.lowered) := by
    have hread : ∀ m ∈ ms, ∀ w, Reordered m.toJson w → Reads Condition.decoder w m.lowered :=
      fun m hm w hw => Condition.reads_of_reordered
        (fun p hp => h p (Condition.mem_atomsList.mpr ⟨m, hm, hp⟩)) hw
    refine List.forall₂_map_right_iff.mpr (List.Forall₂.flip ?_)
    exact forall₂_imp_mem hvs fun m hm w _ hw => hread m hm w hw
  refine Reads.object ?_ ?_
  · rw [Json.occurOnce_of_perm hperm]
    rfl
  · rw [Json.nestingEntries_of_perm hperm]
    refine (Reads.named (Operator.ofName?_eq_some_iff.mpr rfl)).field (hlookup _) ?_
    refine (Reads.items hmembers).field (hlookup _) ?_
    exact .done _

/-- A requirement whose file names are all in lower case is left as it is. -/
theorem lowered_eq_self {q : Requirement} (h : ∀ p ∈ q.atoms, p.lowered = p) : q.lowered = q := by
  have hms : q.members.map Condition.lowered = q.members.map id := List.map_congr_left
    fun m hm => Condition.lowered_eq_self fun p hp =>
      h p (Condition.mem_atomsList.mpr ⟨m, hm, hp⟩)
  rw [lowered, hms, List.map_id]

/-- A requirement that consists of canonical atoms. -/
def Canonical (q : Requirement) : Prop :=
  ∀ p ∈ q.atoms, p.Canonical

theorem Canonical.reads {q : Requirement} (h : q.Canonical) : Reads decoder q.toJson q := by
  have hreads := reads_of_reordered (fun p hp => (h p hp).1) (.refl q.toJson)
  rwa [lowered_eq_self fun p hp => (h p hp).2] at hreads

theorem exact_toJson (q : Requirement) : Exact q.toJson :=
  Condition.exact_toJson q.toCondition

end Requirement

end ModInstall
