import ModInstall.Proofs.InstallState.Flags
import ModInstall.Proofs.Text.Lowercase

/-! # What a history leaves behind

    A state is changed in seven ways, and whatever the order of the changes a
    query is answered by the last of them that wrote to it.  `Change.writes` is
    what one change writes to one query: to a flag by its exact name, to a file
    by its name in lower case, and never to more than the change names.  One
    change answers with its last write or leaves the answer alone
    (`ask_apply`), and so does a history (`ask_foldl`). -/

namespace ModInstall

/-- What can be done to a state while a package is being installed. -/
inductive Change
  | setFlag (name value : String)
  | clearFlag (name : String)
  | setFile (name : String) (state : FileState)
  | setVerdict (kind : String) (truth : Bool)
  | setGameVersion (version : Version)
  | setManagerVersion (version : Version)
  | choose (plugin : Plugin)

/-- The state behind a change. -/
def Change.apply (s : InstallState) : Change → InstallState
  | .setFlag name value => s.setFlag name value
  | .clearFlag name => s.clearFlag name
  | .setFile name state => s.setFile name state
  | .setVerdict kind truth => s.setVerdict kind truth
  | .setGameVersion version => s.setGameVersion version
  | .setManagerVersion version => s.setManagerVersion version
  | .choose plugin => s.choose plugin

/-- The state behind a history that began with nothing known. -/
def InstallState.after (history : List Change) : InstallState :=
  history.foldl Change.apply .empty

/-- What a state can be asked. -/
inductive Query
  | gameVersion
  | managerVersion
  | flag (name : String)
  | file (name : String)
  | verdict (kind : String)

/-- What a query is answered with. -/
abbrev Query.Answer : Query → Type
  | .gameVersion | .managerVersion => Option Version
  | .flag _ => Option String
  | .file _ => FileState
  | .verdict _ => Option Bool

/-- The answer of a state. -/
def InstallState.ask (s : InstallState) : (q : Query) → q.Answer
  | .gameVersion => s.gameVersion
  | .managerVersion => s.managerVersion
  | .flag name => s.flagValue name
  | .file name => s.fileState name
  | .verdict kind => s.verdict kind

namespace Change

/-- A change is about a query: it names the flag, the kind or the version, or
    the file up to case. -/
def Names : Change → Query → Prop
  | .setFlag flag _, .flag name | .clearFlag flag, .flag name => name = flag
  | .choose plugin, .flag name => ∃ f ∈ plugin.flags, f.name = name
  | .setFile file _, .file name => Text.lowercase name = Text.lowercase file
  | .setVerdict kind _, .verdict name => name = kind
  | .setGameVersion _, .gameVersion => True
  | .setManagerVersion _, .managerVersion => True
  | _, _ => False

/-- The answers that a change writes to a query, in order.  Clearing a flag
    writes that it has no value, and a plugin writes its flags one by one. -/
def writes : Change → (q : Query) → List q.Answer
  | .setFlag flag value, .flag name => if name = flag then [some value] else []
  | .clearFlag flag, .flag name => if name = flag then [none] else []
  | .choose plugin, .flag name => (plugin.flags.filter (·.name == name)).map (some ·.value)
  | .setFile file state, .file name =>
      if Text.lowercase name = Text.lowercase file then [state] else []
  | .setVerdict kind truth, .verdict name => if name = kind then [some truth] else []
  | .setGameVersion version, .gameVersion => [some version]
  | .setManagerVersion version, .managerVersion => [some version]
  | _, _ => []

/-- A change writes nothing to a query that it is not about. -/
theorem writes_eq_nil {c : Change} {q : Query} (h : ¬ c.Names q) : c.writes q = [] := by
  -- a change writes only to queries of its own kind, so the other kinds are settled by `rfl`
  cases c with
  | setFlag flag value | clearFlag flag =>
      cases q with
      | flag name => exact if_neg h
      | gameVersion | managerVersion | file | verdict => rfl
  | setFile file state =>
      cases q with
      | file name => exact if_neg h
      | gameVersion | managerVersion | flag | verdict => rfl
  | setVerdict kind truth =>
      cases q with
      | verdict name => exact if_neg h
      | gameVersion | managerVersion | flag | file => rfl
  | setGameVersion version =>
      cases q with
      | gameVersion => exact absurd trivial h
      | managerVersion | flag | file | verdict => rfl
  | setManagerVersion version =>
      cases q with
      | managerVersion => exact absurd trivial h
      | gameVersion | flag | file | verdict => rfl
  | choose plugin =>
      cases q with
      | flag name =>
          have hnone : ∀ f ∈ plugin.flags, ¬ (f.name == name) = true :=
            fun f hf he => h ⟨f, hf, beq_iff_eq.mp he⟩
          rw [writes, List.filter_eq_nil_iff.mpr hnone, List.map_nil]
      | gameVersion | managerVersion | file | verdict => rfl

end Change

/-- The last answer that a history writes to a query. -/
def lastWrite (history : List Change) (q : Query) : Option q.Answer :=
  (history.flatMap (·.writes q)).getLast?

namespace InstallState

/-! ## One change -/

variable {s : InstallState} {name : String}

/-- Clearing a flag changes this flag and no other. -/
theorem flagValue_clearFlag (flag : String) :
    (s.clearFlag flag).flagValue name = if name = flag then none else s.flagValue name :=
  Table.find?_take s.flags

/-- Setting the state of a file changes it under every spelling of its name,
    and no other file. -/
theorem fileState_setFile (file : String) (state : FileState) :
    (s.setFile file state).fileState name
      = if Text.lowercase name = Text.lowercase file then state else s.fileState name := by
  show ((s.files.set _ _).find? _).getD _ = _
  rw [Table.find?_set]
  by_cases h : Text.lowercase name = Text.lowercase file
  · rw [if_pos h, if_pos h, Option.getD_some]
  · rw [if_neg h, if_neg h]
    rfl

/-- Setting a verdict changes this kind and no other. -/
theorem verdict_setVerdict (kind : String) (truth : Bool) :
    (s.setVerdict kind truth).verdict name = if name = kind then some truth else s.verdict name :=
  Table.find?_set s.verdicts

/-- What is written only under a condition answers under that condition. -/
theorem getD_getLast?_ite {α : Type} {p : Prop} [Decidable p] (new old : α) :
    (if p then [new] else []).getLast?.getD old = if p then new else old := by
  by_cases h : p
  · rw [if_pos h, if_pos h]
    rfl
  · rw [if_neg h, if_neg h]
    rfl

/-- The last write of a plugin to a flag is the last value that it gives it. -/
theorem getLast?_writes_choose (plugin : Plugin) :
    ((Change.choose plugin).writes (.flag name)).getLast?
      = (lastValue plugin.flags name).map some := by
  rw [Change.writes, List.getLast?_map, List.getLast?_eq_head?_reverse, ← List.filter_reverse,
    List.head?_filter, lastValue, Option.map_map]
  rfl

/-- Choosing a plugin writes flags only. -/
theorem ask_choose (plugin : Plugin) {q : Query} (h : ∀ name, q ≠ .flag name) :
    (s.choose plugin).ask q = s.ask q := by
  rw [choose_eq]
  cases q with
  | flag name => exact absurd rfl (h name)
  | gameVersion | managerVersion | file | verdict => rfl

/-- **One change answers with its last write**, or leaves the answer alone. -/
theorem ask_apply (c : Change) (s : InstallState) (q : Query) :
    (c.apply s).ask q = (c.writes q).getLast?.getD (s.ask q) := by
  -- where the kinds differ nothing is written, and the change leaves the answer alone
  cases c with
  | setFlag flag value =>
      cases q with
      | flag name => exact (flagValue_setFlag flag value).trans (getD_getLast?_ite _ _).symm
      | gameVersion | managerVersion | file | verdict => rfl
  | clearFlag flag =>
      cases q with
      | flag name => exact (flagValue_clearFlag flag).trans (getD_getLast?_ite _ _).symm
      | gameVersion | managerVersion | file | verdict => rfl
  | setFile file state =>
      cases q with
      | file name => exact (fileState_setFile file state).trans (getD_getLast?_ite _ _).symm
      | gameVersion | managerVersion | flag | verdict => rfl
  | setVerdict kind truth =>
      cases q with
      | verdict name => exact (verdict_setVerdict kind truth).trans (getD_getLast?_ite _ _).symm
      | gameVersion | managerVersion | flag | file => rfl
  | setGameVersion version | setManagerVersion version => cases q <;> rfl
  | choose plugin =>
      cases q with
      | flag name =>
          rw [getLast?_writes_choose]
          show (plugin.flags.foldl _ s).flagValue name = _
          rw [flagValue_foldl_setFlag]
          cases lastValue plugin.flags name <;> rfl
      | gameVersion | managerVersion | file | verdict => exact ask_choose plugin nofun

/-! ## A history -/

/-- A history answers with its last write, or leaves the answer alone. -/
theorem ask_foldl (history : List Change) (s : InstallState) (q : Query) :
    (history.foldl Change.apply s).ask q = (lastWrite history q).getD (s.ask q) := by
  induction history generalizing s with
  | nil => rfl
  | cons c history ih =>
      rw [List.foldl_cons, ih, ask_apply, lastWrite, lastWrite, List.flatMap_cons,
        List.getLast?_append]
      cases (history.flatMap (·.writes q)).getLast? <;> rfl

/-- Predicates ask for files without regard to case, whichever way they are
    made. -/
theorem fileState_lowercase (s : InstallState) (file : String) :
    s.fileState (Text.lowercase file) = s.fileState file := by
  rw [fileState, Text.lowercase_lowercase]
  rfl

/-- A state answers as a history has left it: every query with the last write
    to it, and what was never written as if nothing were known. -/
structure FollowsHistory (history : List Change) (s : InstallState) : Prop where
  flagValue      : ∀ name, s.flagValue name = (lastWrite history (.flag name)).getD none
  fileState      : ∀ name, s.fileState name = (lastWrite history (.file name)).getD .missing
  verdict        : ∀ kind, s.verdict kind = (lastWrite history (.verdict kind)).getD none
  gameVersion    : s.gameVersion = (lastWrite history .gameVersion).getD none
  managerVersion : s.managerVersion = (lastWrite history .managerVersion).getD none

/-- **The last write wins, whatever the history.**  Flags answer by their exact
    names and files by their names in lower case; a flag that is taken out is
    given back as it was; and a change leaves alone what it does not name.  A
    predicate on a file is judged by the state of the file, whether its name
    was put in lower case before or not. -/
theorem after_last_write_wins (history : List Change) :
    FollowsHistory history (after history) ∧
    (∀ flag, ((after history).takeFlag flag).1 = (after history).flagValue flag) ∧
    (∀ c q, ¬ Change.Names c q → (c.apply (after history)).ask q = (after history).ask q) ∧
    (∀ file state,
      (Predicate.fileIs file state).evaluate (after history).facts
        = .ok (decide ((after history).fileState file = state)) ∧
      (Predicate.file file state).evaluate (after history).facts
        = .ok (decide ((after history).fileState file = state))) := by
  have hask : ∀ q, (after history).ask q = (lastWrite history q).getD (empty.ask q) :=
    fun q => ask_foldl history empty q
  refine ⟨?answers, fun flag => Table.take_fst _, ?frame, ?predicates⟩
  case answers =>
    exact ⟨fun name => hask (.flag name), fun name => hask (.file name),
      fun kind => hask (.verdict kind), hask .gameVersion, hask .managerVersion⟩
  case frame =>
    intro c q h
    rw [ask_apply, Change.writes_eq_nil h]
    rfl
  case predicates =>
    intro file state
    have hfile : ∀ name, (Predicate.file name state).evaluate (after history).facts
        = .ok (decide ((after history).fileState name = state)) :=
      fun _ => rfl
    refine ⟨?_, hfile file⟩
    rw [Predicate.fileIs, hfile, fileState_lowercase]

/-- A plugin that sets a flag twice, and another flag between. -/
def twiceFlagged : Plugin where
  name        := "P"
  description := ""
  typeRule    := .fixed .optional
  flags       := [⟨"F", "2"⟩, ⟨"G", "On"⟩, ⟨"F", "3"⟩]

/-- A history with every name written more than once. -/
def mixedHistory : List Change := [
  .setFlag "F" "1", .setFile "A.esp" .inactive, .choose twiceFlagged, .setFlag "f" "0",
  .clearFlag "G", .setVerdict "k" false, .setFile "a.ESP" .active, .setVerdict "k" true]

/-- Flags that are set, cleared and set again, a file asked for under another
    spelling, a verdict given twice. -/
theorem after_last_write_wins_mixed :
    (after mixedHistory).flagValue "F" = some "3" ∧
    (after mixedHistory).flagValue "G" = none ∧
    (after mixedHistory).fileState "A.ESP" = .active ∧
    (after mixedHistory).verdict "k" = some true ∧
    ((after mixedHistory).takeFlag "F").1 = some "3" ∧
    ((after mixedHistory).setFlag "G" "Off").flagValue "F" = some "3" := by
  obtain ⟨⟨hflag, hfile, hverdict, -, -⟩, htake, hframe, -⟩ := after_last_write_wins mixedHistory
  have hF : (after mixedHistory).flagValue "F" = some "3" := hflag "F"
  refine ⟨hF, hflag "G", (hfile "A.ESP").trans ?_, hverdict "k", (htake "F").trans hF, ?_⟩
  · decide +kernel
  · have hother : ¬ (Change.setFlag "G" "Off").Names (.flag "F") :=
      fun h => absurd (show "F" = "G" from h) (by decide)
    exact (hframe (.setFlag "G" "Off") (.flag "F") hother).trans hF

end InstallState

end ModInstall
