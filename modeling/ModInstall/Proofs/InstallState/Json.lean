import ModInstall.InstallState.Json
import ModInstall.Proofs.Condition.Json
import ModInstall.Proofs.InstallState.History
import ModInstall.Proofs.Json.Text

/-! # States in JSON read back

    Whatever an installer has done to a state, from nothing or from a state
    that it read, two things hold of it (`Canonical`): the names of its files
    are in lower case, and its versions have texts.  Each change keeps that,
    and reading establishes it.  Such a state is read back from its JSON form,
    however the keys of the objects there are ordered: no two names of files
    fall together any more, and so no order of entries shows. -/

namespace ModInstall

open Json (Decoder Reads Exact Reordered Rigid)

/-! ## Tables -/

/-- Values that are written without keys, on one level, and read back. -/
structure Scalar {α : Type} (encode : α → Json) (d : Decoder α) : Prop where
  reads : ∀ a, Reads d (encode a) a
  rigid : ∀ a, Rigid (encode a)
  exact : ∀ a, Exact (encode a)
  flat  : ∀ a, (encode a).nesting = 0

theorem Scalar.string : Scalar .string Decoder.string :=
  ⟨Reads.string, Rigid.string, .string, fun _ => rfl⟩

theorem Scalar.bool : Scalar .bool Decoder.bool :=
  ⟨Reads.bool, Rigid.bool, .bool, fun _ => rfl⟩

/-- File states are written as their names. -/
theorem Scalar.fileState : Scalar (fun state => .string state.name) FileState.decoder :=
  ⟨fun _ => Reads.named (FileState.ofName?_eq_some_iff.mpr rfl), fun _ => Rigid.string _,
    fun _ => .string _, fun _ => rfl⟩

namespace Table

variable {α : Type} {encode : α → Json} {d : Decoder α} {t : Table α}

/-- Two tables hold the same under every key. -/
def Same (t t' : Table α) : Prop :=
  ∀ key, t.find? key = t'.find? key

theorem same_of_perm {t t' : Table α} (h : t.entries.Perm t'.entries) : t.Same t' :=
  fun key => lookup_of_perm h.symm t'.nodup key

/-- A table is read back by setting its entries again, in the order in which
    they were written. -/
theorem reads_toJson (h : Scalar encode d) (t : Table α) :
    Reads (Table.decoder d) (t.toJson encode) (.ofEntries t.entries) :=
  (Reads.entries h.reads t.entries).map ofEntries

theorem exact_toJson (h : Scalar encode d) (t : Table α) : Exact (t.toJson encode) := by
  refine .object fun e he => ?_
  obtain ⟨e, -, rfl⟩ := List.mem_map.mp he
  exact h.exact e.2

theorem nesting_toJson (h : Scalar encode d) (t : Table α) : (t.toJson encode).nesting = 1 := by
  have hflat : ∀ es : List (String × α),
      Json.nestingEntries (es.map fun e => (e.1, encode e.2)) = 0 := by
    intro es
    induction es with
    | nil => rfl
    | cons e es ih => rw [List.map_cons, Json.nestingEntries, h.flat, ih, Nat.max_self]
  rw [toJson, Json.nesting, hflat]

/-- A table in another order of keys is a table of the same entries. -/
theorem exists_perm_of_reordered (h : Scalar encode d) {w : Json}
    (hw : Reordered (t.toJson encode) w) :
    ∃ t' : Table α, t'.entries.Perm t.entries ∧ w = t'.toJson encode := by
  have hrigid : ∀ e ∈ t.entries.map fun e => (e.1, encode e.2), Rigid e.2 :=
    List.forall_mem_map.mpr fun e _ => h.rigid e.2
  obtain ⟨gs, rfl, hgs⟩ := Json.exists_perm_of_rigid hw hrigid
  obtain ⟨es, rfl, hes⟩ : ∃ es : List (String × α),
      gs = es.map (fun e => (e.1, encode e.2)) ∧ es.Perm t.entries := by
    have hcomp := congrFun₂ (List.eq_map_comp_perm fun e : String × α => (e.1, encode e.2)) gs
      t.entries
    exact hcomp.mpr hgs.symm
  exact ⟨⟨es, (hes.map Prod.fst).nodup_iff.mpr t.nodup⟩, hes, rfl⟩

end Table

/-- The version that a change sets. -/
def Change.version? : Change → Option Version
  | .setGameVersion version | .setManagerVersion version => some version
  | _ => none

namespace InstallState

/-! ## What can be reached -/

/-- The states that an installer can come to: it begins with nothing known or
    with a state that it reads, and sets versions that have been read from
    texts. -/
inductive Reachable : InstallState → Prop
  | empty : Reachable .empty
  | read {order : Table.Order FileState} {text : String} {s : InstallState} :
      Decoder.ofText? (decoderIn order) text = some s → Reachable s
  | change {s : InstallState} (c : Change) : Reachable s →
      (∀ version ∈ c.version?, ∃ text, Version.parse? text = some version) → Reachable (c.apply s)

/-- The names of files are in lower case, and versions have texts. -/
structure Canonical (s : InstallState) : Prop where
  files          : ∀ name ∈ s.files.entries.map Prod.fst, Text.lowercase name = name
  gameVersion    : ∀ version ∈ s.gameVersion, version.components ≠ []
  managerVersion : ∀ version ∈ s.managerVersion, version.components ≠ []

variable {s s' : InstallState}

theorem Canonical.empty : Canonical .empty :=
  ⟨nofun, nofun, nofun⟩

/-- Every change keeps names in lower case, and sets versions that have
    texts. -/
theorem Canonical.apply {c : Change} (h : Canonical s)
    (hc : ∀ version ∈ c.version?, ∃ text, Version.parse? text = some version) :
    Canonical (c.apply s) := by
  have htexts : ∀ version ∈ c.version?, version.components ≠ [] := by
    intro version hversion
    obtain ⟨text, htext⟩ := hc version hversion
    exact Version.components_ne_nil_of_parse? htext
  cases c with
  | setFlag | clearFlag | setVerdict => exact ⟨h.files, h.gameVersion, h.managerVersion⟩
  | setFile file state =>
      refine ⟨fun name hname => ?_, h.gameVersion, h.managerVersion⟩
      rcases Table.mem_keys_setEntry.mp hname with rfl | hold
      · exact Text.lowercase_lowercase file
      · exact h.files name hold
  | setGameVersion version => exact ⟨h.files, htexts, h.managerVersion⟩
  | setManagerVersion version => exact ⟨h.files, h.gameVersion, htexts⟩
  | choose plugin =>
      show Canonical (s.choose plugin)
      rw [choose_eq]
      exact ⟨h.files, h.gameVersion, h.managerVersion⟩

/-! ## Reading -/

/-- Names are put in lower case as they are read, in whatever order. -/
theorem lowercase_of_mem_filesDecoder {order : Table.Order FileState} {room : Nat} {v : Json}
    {t : Table FileState} (h : filesDecoder order room v = some t) {name : String}
    (hname : name ∈ t.entries.map Prod.fst) : Text.lowercase name = name := by
  obtain ⟨raw, -, rfl⟩ := Option.map_eq_some_iff.mp h
  have hentry := Table.mem_keys_ofEntries.mp hname
  rw [List.map_map] at hentry
  obtain ⟨e, -, rfl⟩ := List.mem_map.mp hentry
  exact Text.lowercase_lowercase e.1

/-- A version that may be missing has a text where it is there. -/
theorem components_ne_nil_of_getD {f : Json.Fields} {key : String} {read : Option Version}
    (h : f.getD key none (Decoder.nullable Version.decoder) = some read) :
    ∀ version ∈ read, version.components ≠ [] := by
  intro version hversion
  obtain rfl := Option.mem_def.mp hversion
  rcases Json.getD_cases h with hnone | ⟨v, hv⟩
  · exact nomatch hnone
  · cases v with
    | string text =>
        obtain ⟨version', hparse, hsome⟩ := Option.map_eq_some_iff.mp hv
        obtain rfl := Option.some.inj hsome
        exact Version.components_ne_nil_of_parse? hparse
    | null | bool | int | decimal | array | object | unreadable => exact nomatch hv

/-- **What is read is canonical**, in whatever order the files come. -/
theorem canonical_of_decoderIn {order : Table.Order FileState} {room : Nat} {v : Json}
    (h : decoderIn order room v = some s) : Canonical s := by
  simp only [decoderIn, Option.bind_eq_bind, Option.bind_eq_some_iff, Option.pure_def,
    Option.some.injEq] at h
  obtain ⟨f, -, game, hgame, manager, hmanager, files, hfiles, flags, -, verdicts, -, rfl⟩ := h
  refine ⟨?_, components_ne_nil_of_getD hgame, components_ne_nil_of_getD hmanager⟩
  intro name hname
  rcases Json.getD_cases hfiles with rfl | ⟨w, hw⟩
  · exact nomatch hname
  · exact lowercase_of_mem_filesDecoder hw hname

/-- **Whatever can be reached is canonical**, from nothing known or from a
    state that was read, by any changes. -/
theorem Reachable.canonical (h : Reachable s) : Canonical s := by
  induction h with
  | empty => exact .empty
  | read htext =>
      obtain ⟨v, -, hv⟩ := Option.bind_eq_some_iff.mp htext
      exact canonical_of_decoderIn hv
  | change c _ hc ih => exact ih.apply hc

/-! ## Reading back -/

/-- Two states know the same: the same versions, and the same under every key
    of their tables. -/
structure Same (s s' : InstallState) : Prop where
  gameVersion    : s.gameVersion = s'.gameVersion
  managerVersion : s.managerVersion = s'.managerVersion
  files          : s.files.Same s'.files
  flags          : s.flags.Same s'.flags
  verdicts       : s.verdicts.Same s'.verdicts

theorem Same.trans {s'' : InstallState} (h : s.Same s') (h' : s'.Same s'') : s.Same s'' where
  gameVersion    := h.gameVersion.trans h'.gameVersion
  managerVersion := h.managerVersion.trans h'.managerVersion
  files key      := (h.files key).trans (h'.files key)
  flags key      := (h.flags key).trans (h'.flags key)
  verdicts key   := (h.verdicts key).trans (h'.verdicts key)

/-- States that know the same answer the same. -/
theorem Same.ask (h : s.Same s') (q : Query) : s.ask q = s'.ask q := by
  cases q with
  | gameVersion => exact h.gameVersion
  | managerVersion => exact h.managerVersion
  | flag name => exact h.flags name
  | file name => exact congrArg (Option.getD · .missing) (h.files (Text.lowercase name))
  | verdict kind => exact h.verdicts kind

/-- A version as JSON, or null. -/
def versionJson (version? : Option Version) : Json :=
  (version?.map Version.toJson).getD .null

/-- The entries of a state as an object. -/
def toEntries (s : InstallState) : List (String × Json) := [
  ("gameVersion", versionJson s.gameVersion),
  ("managerVersion", versionJson s.managerVersion),
  ("files", s.files.toJson fun state => .string state.name),
  ("flags", s.flags.toJson .string),
  ("extensions", s.verdicts.toJson .bool)]

/-- A version that is known has components and is read back; one that is not is
    null and stays unknown. -/
theorem reads_versionJson {version? : Option Version}
    (h : ∀ version ∈ version?, version.components ≠ []) :
    Reads (Decoder.nullable Version.decoder) (versionJson version?) version? := by
  cases version? with
  | none => exact Reads.null _
  | some version => exact Reads.nullable nofun (Version.reads (h version rfl))

theorem rigid_versionJson (version? : Option Version) : Rigid (versionJson version?) := by
  cases version? with
  | none => exact Rigid.null
  | some version => exact Rigid.string _

theorem exact_versionJson (version? : Option Version) : Exact (versionJson version?) := by
  cases version? with
  | none => exact .null
  | some version => exact .string _

/-- A state in another order of keys is a state of the same entries, and its
    own keys in some order. -/
theorem exists_same_of_reordered {w : Json} (h : Reordered s.toJson w) :
    ∃ (s' : InstallState) (gs : List (String × Json)), s'.Same s ∧
      s'.files.entries.Perm s.files.entries ∧ w = .object gs ∧ s'.toEntries.Perm gs := by
  obtain ⟨fs, gs, rfl, hkeys, hvalues, hperm⟩ := Json.reordered_object_iff.mp h
  match fs, hkeys, hvalues with
  | [(_, g), (_, m), (_, f), (_, l), (_, x)], hkeys,
      .cons hg (.cons hm (.cons hf (.cons hl (.cons hx .nil)))) =>
      obtain ⟨rfl, rfl, rfl, rfl, rfl⟩ : "gameVersion" = _ ∧ "managerVersion" = _ ∧
          "files" = _ ∧ "flags" = _ ∧ "extensions" = _ := by
        simpa using hkeys
      obtain rfl := rigid_versionJson _ _ hg
      obtain rfl := rigid_versionJson _ _ hm
      obtain ⟨files, hfiles, rfl⟩ := Table.exists_perm_of_reordered Scalar.fileState hf
      obtain ⟨flags, hflags, rfl⟩ := Table.exists_perm_of_reordered Scalar.string hl
      obtain ⟨verdicts, hverdicts, rfl⟩ := Table.exists_perm_of_reordered Scalar.bool hx
      have hsame : Same { s with files, flags, verdicts } s :=
        ⟨rfl, rfl, Table.same_of_perm hfiles, Table.same_of_perm hflags,
          Table.same_of_perm hverdicts⟩
      exact ⟨_, gs, hsame, hfiles, rfl, hperm⟩

/-- Files are read as their entries say, set in the given order of the map. -/
theorem reads_files (order : Table.Order FileState) (t : Table FileState) :
    Reads (filesDecoder order) (t.toJson fun state => .string state.name)
      (filesOfEntries (order.arrange t.entries)) := by
  have hraw := Table.reads_toJson Scalar.fileState t
  have hfiles := hraw.map fun t => filesOfEntries (order.arrange t.entries)
  rwa [Table.entries_ofEntries t.nodup] at hfiles

/-- Names in lower case do not fall together, so that files are the same in any
    order. -/
theorem filesOfEntries_same {t : Table FileState} {es : List (String × FileState)}
    (h : t.entries.Perm es)
    (hlower : ∀ name ∈ t.entries.map Prod.fst, Text.lowercase name = name) :
    (filesOfEntries es).Same t := by
  have hkeep : es.map (fun e => (Text.lowercase e.1, e.2)) = es.map id := by
    refine List.map_congr_left fun e he => ?_
    have hname := hlower e.1 (List.mem_map.mpr ⟨e, h.mem_iff.mpr he, rfl⟩)
    exact Prod.ext hname rfl
  intro key
  rw [filesOfEntries, hkeep, List.map_id]
  exact Table.find?_ofEntries_of_perm h key

/-- The state made of the entries of another one, the files in some order. -/
def rebuilt (order : Table.Order FileState) (s : InstallState) : InstallState where
  gameVersion    := s.gameVersion
  managerVersion := s.managerVersion
  files          := filesOfEntries (order.arrange s.files.entries)
  flags          := .ofEntries s.flags.entries
  verdicts       := .ofEntries s.verdicts.entries

/-- Names that are in lower case stay apart, so setting them again, in any
    order, gives the same files. -/
theorem Canonical.rebuilt_same (h : Canonical s) (order : Table.Order FileState) :
    (s.rebuilt order).Same s where
  gameVersion    := rfl
  managerVersion := rfl
  files          := filesOfEntries_same (order.perm _).symm h.files
  flags          := Table.find?_ofEntries_of_perm (.refl _)
  verdicts       := Table.find?_ofEntries_of_perm (.refl _)

/-- A state is read off its entries, in whatever order they come. -/
theorem reads_of_perm {gs : List (String × Json)} (h : Canonical s) (hperm : s.toEntries.Perm gs)
    (order : Table.Order FileState) : Reads (decoderIn order) (.object gs) (s.rebuilt order) := by
  have hkeys : (s.toEntries.map Prod.fst).Nodup := by simp [toEntries]
  have hlookup := Table.lookup_of_perm hperm hkeys
  refine Reads.object ?_ ?_
  · rw [Json.occurOnce_of_perm hperm]
    rfl
  · rw [Json.nestingEntries_of_perm hperm]
    refine (reads_versionJson h.gameVersion).fieldD (hlookup _) ?_
    refine (reads_versionJson h.managerVersion).fieldD (hlookup _) ?_
    refine (reads_files order s.files).fieldD (hlookup _) ?_
    refine (Table.reads_toJson Scalar.string s.flags).fieldD (hlookup _) ?_
    refine (Table.reads_toJson Scalar.bool s.verdicts).fieldD (hlookup _) ?_
    exact .done _

/-- A state is written in exact values, in whatever order its keys stand. -/
theorem exact_of_perm {gs : List (String × Json)} (hperm : s.toEntries.Perm gs) :
    Exact (.object gs) := by
  refine .object fun e he => ?_
  have hentries : ∀ e ∈ s.toEntries, Exact e.2 := by
    simp [toEntries, exact_versionJson, Table.exact_toJson Scalar.fileState,
      Table.exact_toJson Scalar.string, Table.exact_toJson Scalar.bool]
  exact hentries e (hperm.mem_iff.mpr he)

/-- The JSON of a state is two levels deep, in whatever order its keys
    stand. -/
theorem nesting_of_perm {gs : List (String × Json)} (hperm : s.toEntries.Perm gs) :
    (Json.object gs).nesting = 2 := by
  have hflat : ∀ version? : Option Version, (versionJson version?).nesting = 0 := by
    intro version?
    cases version? <;> rfl
  rw [Json.nesting, Json.nestingEntries_of_perm hperm]
  simp [toEntries, Json.nestingEntries, hflat, Table.nesting_toJson Scalar.fileState,
    Table.nesting_toJson Scalar.string, Table.nesting_toJson Scalar.bool]

/-- **A canonical state is read back** from its text, in whatever order the
    keys of its objects were written and its files are gone through. -/
theorem Canonical.reads_back (h : Canonical s) {w : Json} (hw : Reordered s.toJson w)
    (order : Table.Order FileState) :
    ∃ s', Decoder.ofText? (decoderIn order) w.compact = some s' ∧ s'.Same s := by
  obtain ⟨t, gs, hsame, hfiles, rfl, hperm⟩ := exists_same_of_reordered hw
  have ht : Canonical t := by
    refine ⟨fun name hname => ?_, ?_, ?_⟩
    · exact h.files name ((hfiles.map Prod.fst).mem_iff.mp hname)
    · rw [hsame.gameVersion]
      exact h.gameVersion
    · rw [hsame.managerVersion]
      exact h.managerVersion
  refine ⟨t.rebuilt order, ?_, (ht.rebuilt_same order).trans hsame⟩
  rw [Decoder.ofText?, Json.read?_compact (exact_of_perm hperm), Option.bind_some,
    reads_of_perm ht hperm order, nesting_of_perm hperm]
  exact if_pos (by decide)

/-- **A reachable state survives its JSON form.**  Whatever has been done to
    it, the names of its files are in lower case; and from its JSON form,
    written in any order of keys and read in any order of files, a state is
    read that knows the same and answers every query alike. -/
theorem reachable_reads_back (h : Reachable s) :
    (∀ name ∈ s.files.entries.map Prod.fst, Text.lowercase name = name) ∧
    ∀ w, Reordered s.toJson w → ∀ order : Table.Order FileState,
      ∃ s', Decoder.ofText? (decoderIn order) w.compact = some s' ∧ s'.Same s ∧
        ∀ q : Query, s'.ask q = s.ask q := by
  refine ⟨h.canonical.files, fun w hw order => ?_⟩
  obtain ⟨s', htext, hsame⟩ := h.canonical.reads_back hw order
  exact ⟨s', htext, hsame, hsame.ask⟩

/-- A state that knows one file, by a name in upper case. -/
def upperCase : Json :=
  .object [("files", .object [("A.ESP", .string "Active")])]

/-- A state that was read and then changed, written and read once more. -/
theorem reachable_reads_back_upperCase :
    ∃ s, Decoder.ofText? decoder upperCase.compact = some s ∧
      Reachable ((Change.setGameVersion ⟨[1, 5]⟩).apply s) ∧
      ∃ s', Decoder.ofText? decoder
          (Json.compact (toJson ((Change.setGameVersion ⟨[1, 5]⟩).apply s))) = some s' ∧
        s'.gameVersion = some ⟨[1, 5]⟩ ∧ s'.fileState "a.esp" = .active := by
  have hexact : Exact upperCase := by
    refine .object fun e he => ?_
    obtain rfl := List.mem_singleton.mp he
    refine .object fun e he => ?_
    obtain rfl := List.mem_singleton.mp he
    exact .string _
  have hread : Decoder.ofText? decoder upperCase.compact
      = some { files := filesOfEntries [("A.ESP", .active)] } := by
    rw [Decoder.ofText?, Json.read?_compact hexact]
    rfl
  have hreachable : Reachable ((Change.setGameVersion ⟨[1, 5]⟩).apply
      { files := filesOfEntries [("A.ESP", .active)] }) := by
    refine .change _ (.read hread) fun version hversion => ⟨"1.5", ?_⟩
    obtain rfl := Option.some.inj hversion
    rfl
  obtain ⟨-, hback⟩ := reachable_reads_back hreachable
  obtain ⟨s', htext, hsame, hask⟩ := hback _ (.refl _) .firstSet
  refine ⟨_, hread, hreachable, s', htext, hsame.gameVersion, (hask (.file "a.esp")).trans ?_⟩
  decide +kernel

end InstallState

end ModInstall
