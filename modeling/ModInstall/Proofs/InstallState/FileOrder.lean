import ModInstall.InstallState.Json
import ModInstall.Proofs.Table

/-! # File names that differ in case only

    When a state is read, file names are first told apart as they are written
    and then put in lower case one after the other, in whatever order they come
    out of the map that held them.  Spellings of one name fall together there,
    and the last one counts.  So a file may be found in any state that one of
    its spellings carries (`MayAnswer`), and reading says the same in every
    order exactly when the spellings of each name carry one state
    (`SpeltAlike`). -/

namespace ModInstall.InstallState

/-- What a file may be found in: the state that a spelling of its name carries,
    or missing if no entry spells it. -/
def MayAnswer (es : List (String × FileState)) (file : String) (state : FileState) : Prop :=
  (∃ e ∈ es, Text.lowercase e.1 = Text.lowercase file ∧ e.2 = state) ∨
    (∀ e ∈ es, Text.lowercase e.1 ≠ Text.lowercase file) ∧ state = .missing

/-- The spellings of each name carry one state. -/
def SpeltAlike (es : List (String × FileState)) : Prop :=
  ∀ e ∈ es, ∀ e' ∈ es, Text.lowercase e.1 = Text.lowercase e'.1 → e.2 = e'.2

/-- The state in which nothing is known but some files. -/
def ofFiles (files : Table FileState) : InstallState :=
  { files }

variable {es es' : List (String × FileState)} {file : String} {state : FileState}

/-- What may be answered does not depend on the order of the entries. -/
theorem MayAnswer.of_perm (h : es.Perm es') (hes : MayAnswer es file state) :
    MayAnswer es' file state := by
  rcases hes with ⟨e, he, hname, hstate⟩ | ⟨hnone, hstate⟩
  · exact Or.inl ⟨e, h.mem_iff.mp he, hname, hstate⟩
  · exact Or.inr ⟨fun e he => hnone e (h.mem_iff.mpr he), hstate⟩

/-- Where all spellings of a name carry one state there is one answer. -/
theorem MayAnswer.unique {state' : FileState} (h : SpeltAlike es) (hes : MayAnswer es file state)
    (hes' : MayAnswer es file state') : state = state' := by
  rcases hes with ⟨e, he, hname, rfl⟩ | ⟨hnone, rfl⟩
  · rcases hes' with ⟨e', he', hname', rfl⟩ | ⟨hnone, -⟩
    · exact h e he e' he' (hname.trans hname'.symm)
    · exact absurd hname (hnone e he)
  · rcases hes' with ⟨e', he', hname', -⟩ | ⟨-, rfl⟩
    · exact absurd hname' (hnone e' he')
    · rfl

/-! ## Entries one after the other -/

/-- Of the entries that spell a name, the last one set is the one that
    answers. -/
theorem fileState_filesOfEntries (es : List (String × FileState)) (file : String) :
    (ofFiles (filesOfEntries es)).fileState file
      = ((es.reverse.map fun e => (Text.lowercase e.1, e.2)).lookup
          (Text.lowercase file)).getD .missing := by
  rw [List.map_reverse, ← Table.find?_ofEntries]
  rfl

/-- A file is found in the state of one of its spellings. -/
theorem mayAnswer_filesOfEntries (es : List (String × FileState)) (file : String) :
    MayAnswer es file ((ofFiles (filesOfEntries es)).fileState file) := by
  rw [fileState_filesOfEntries]
  cases hlookup : (es.reverse.map fun e => (Text.lowercase e.1, e.2)).lookup
      (Text.lowercase file) with
  | none =>
      refine Or.inr ⟨fun e he hname => ?_, rfl⟩
      have hne := List.lookup_eq_none_iff.mp hlookup (Text.lowercase e.1, e.2)
        (List.mem_map.mpr ⟨e, List.mem_reverse.mpr he, rfl⟩)
      exact bne_iff_ne.mp hne hname.symm
  | some found =>
      obtain ⟨before, after, hes, -⟩ := List.lookup_eq_some_iff.mp hlookup
      have hmem : (Text.lowercase file, found)
          ∈ es.reverse.map fun e => (Text.lowercase e.1, e.2) := by
        rw [hes]
        exact List.mem_append_right _ (List.mem_cons_self ..)
      obtain ⟨e, he, heq⟩ := List.mem_map.mp hmem
      exact Or.inl ⟨e, List.mem_reverse.mp he, congrArg Prod.fst heq, congrArg Prod.snd heq⟩

/-- The spelling that comes last counts. -/
theorem fileState_filesOfEntries_append (es : List (String × FileState)) (e : String × FileState)
    (h : Text.lowercase e.1 = Text.lowercase file) :
    (ofFiles (filesOfEntries (es ++ [e]))).fileState file = e.2 := by
  rw [fileState_filesOfEntries, List.reverse_append, ← h]
  show (((Text.lowercase e.1, e.2) :: _).lookup (Text.lowercase e.1)).getD .missing = e.2
  rw [List.lookup_cons_self]
  rfl

/-! ## Orders -/

/-- The order in which one entry comes last. -/
def lastEntry (e : String × FileState) : Table.Order FileState where
  arrange es := if e ∈ es then es.erase e ++ [e] else es
  perm es := by
    by_cases he : e ∈ es
    · rw [if_pos he]
      exact List.perm_append_comm.trans (List.perm_cons_erase he).symm
    · rw [if_neg he]

/-- Each answer that may come does come in some order: the one that sets its
    entry last. -/
theorem exists_order_of_mayAnswer (h : MayAnswer es file state) :
    ∃ order : Table.Order FileState,
      (ofFiles (filesOfEntries (order.arrange es))).fileState file = state := by
  rcases h with ⟨e, he, hname, rfl⟩ | ⟨hnone, rfl⟩
  · refine ⟨lastEntry e, ?_⟩
    have harrange : (lastEntry e).arrange es = es.erase e ++ [e] := if_pos he
    rw [harrange]
    exact fileState_filesOfEntries_append _ _ hname
  · refine ⟨.firstSet, ?_⟩
    rcases mayAnswer_filesOfEntries es file with ⟨e, he, hname, -⟩ | ⟨-, hmissing⟩
    · exact absurd hname (hnone e he)
    · exact hmissing

/-- What the orders make of a file is what it may be found in. -/
theorem exists_order_iff :
    (∃ order : Table.Order FileState,
      (ofFiles (filesOfEntries (order.arrange es))).fileState file = state) ↔
      MayAnswer es file state := by
  constructor
  · rintro ⟨order, rfl⟩
    exact (mayAnswer_filesOfEntries _ file).of_perm (order.perm es)
  · exact exists_order_of_mayAnswer

/-- All orders say the same exactly when no name is spelt with two states. -/
theorem orders_agree_iff :
    (∀ (order order' : Table.Order FileState) (file : String),
      (ofFiles (filesOfEntries (order.arrange es))).fileState file
        = (ofFiles (filesOfEntries (order'.arrange es))).fileState file) ↔
      SpeltAlike es := by
  constructor
  · intro h e he e' he' hname
    obtain ⟨order, hstate⟩ := exists_order_of_mayAnswer (Or.inl ⟨e, he, rfl, rfl⟩)
    obtain ⟨order', hstate'⟩ := exists_order_of_mayAnswer (Or.inl ⟨e', he', hname.symm, rfl⟩)
    rw [← hstate, ← hstate']
    exact h order order' e.1
  · intro h order order' file
    have hanswer : ∀ order : Table.Order FileState,
        MayAnswer es file ((ofFiles (filesOfEntries (order.arrange es))).fileState file) :=
      fun order => exists_order_iff.mp ⟨order, rfl⟩
    exact (hanswer order).unique h (hanswer order')

/-- **When the order of a map shows.**  From an object of files a reader may
    take, for each file, the states that the spellings of its name carry, one
    in some order of the entries and another in another; and so all orders
    give the same answers exactly when no two spellings of a name carry
    different states. -/
theorem files_read_alike_iff (room : Nat) (v : Json) :
    (∀ file state,
      (∃ order, ∃ t ∈ filesDecoder order room v, (ofFiles t).fileState file = state) ↔
        ∃ raw ∈ Table.decoder FileState.decoder room v, MayAnswer raw.entries file state) ∧
    ((∀ order order', ∀ t ∈ filesDecoder order room v, ∀ t' ∈ filesDecoder order' room v,
      ∀ file, (ofFiles t).fileState file = (ofFiles t').fileState file) ↔
        ∀ raw ∈ Table.decoder FileState.decoder room v, SpeltAlike raw.entries) := by
  have hread : ∀ order t, t ∈ filesDecoder order room v ↔
      ∃ raw ∈ Table.decoder FileState.decoder room v,
        filesOfEntries (order.arrange raw.entries) = t :=
    fun order t => Option.map_eq_some_iff
  refine ⟨fun file state => ?answers, ?agree⟩
  case answers =>
    constructor
    · rintro ⟨order, t, ht, hstate⟩
      obtain ⟨raw, hraw, rfl⟩ := (hread order t).mp ht
      exact ⟨raw, hraw, exists_order_iff.mp ⟨order, hstate⟩⟩
    · rintro ⟨raw, hraw, hanswer⟩
      obtain ⟨order, hstate⟩ := exists_order_iff.mpr hanswer
      exact ⟨order, _, (hread order _).mpr ⟨raw, hraw, rfl⟩, hstate⟩
  case agree =>
    constructor
    · intro h raw hraw
      refine orders_agree_iff.mp fun order order' file => ?_
      exact h order order' _ ((hread order _).mpr ⟨raw, hraw, rfl⟩) _
        ((hread order' _).mpr ⟨raw, hraw, rfl⟩) file
    · intro h order order' t ht t' ht' file
      obtain ⟨raw, hraw, rfl⟩ := (hread order t).mp ht
      obtain ⟨raw', hraw', rfl⟩ := (hread order' t').mp ht'
      -- both readers start from the same entries
      obtain rfl := Option.some.inj (hraw.symm.trans hraw')
      exact orders_agree_iff.mpr (h raw hraw) order order' file

/-- An object in which one file is spelt in two ways, with a state for each. -/
def twoSpellings : Json :=
  .object [("A", .string "Active"), ("a", .string "Inactive")]

/-- Whether such a file is active depends on the order that the map is gone
    through in. -/
theorem files_read_alike_iff_twoSpellings :
    (∃ order, ∃ t ∈ filesDecoder order 1 twoSpellings, (ofFiles t).fileState "a" = .active) ∧
    (∃ order, ∃ t ∈ filesDecoder order 1 twoSpellings, (ofFiles t).fileState "a" = .inactive) ∧
    ¬ ∀ order order', ∀ t ∈ filesDecoder order 1 twoSpellings,
      ∀ t' ∈ filesDecoder order' 1 twoSpellings,
      ∀ file, (ofFiles t).fileState file = (ofFiles t').fileState file := by
  obtain ⟨hanswers, hagree⟩ := files_read_alike_iff 1 twoSpellings
  have hraw : Table.decoder FileState.decoder 1 twoSpellings
      = some (.ofEntries [("A", .active), ("a", .inactive)]) :=
    rfl
  have hname : Text.lowercase "A" = Text.lowercase "a" := by decide +kernel
  have hupper : ("A", FileState.active) ∈ [("A", FileState.active), ("a", .inactive)] :=
    List.mem_cons_self ..
  have hlower : ("a", FileState.inactive) ∈ [("A", FileState.active), ("a", .inactive)] :=
    List.mem_cons_of_mem _ (List.mem_cons_self ..)
  refine ⟨(hanswers _ _).mpr ⟨_, hraw, Or.inl ⟨_, hupper, hname, rfl⟩⟩,
    (hanswers _ _).mpr ⟨_, hraw, Or.inl ⟨_, hlower, rfl, rfl⟩⟩, ?_⟩
  intro h
  exact nomatch hagree.mp h _ hraw _ hupper _ hlower hname

end ModInstall.InstallState
