import ModInstall.Package.Reader
import ModInstall.Proofs.Names
import ModInstall.Proofs.Text.Numeral
import ModInstall.Proofs.Traversal

/-! # What the readers of single values accept

    Readers of attributes and children either give the value that stands there
    or fail with the error that names the place.  Each is pinned down by the
    exact condition of its success; what it fails with otherwise is of the one
    or two kinds that its own steps can raise. -/

namespace ModInstall

/-! ## What an attribute says -/

/-- The priority that an attribute says: the number that its digits spell, with
    a sign in front or without one, and with blanks around or not.  It has to
    fit a word of 32 bits.  An attribute that is not there says 0. -/
inductive SaysPriority : Option String → Int32 → Prop
  | absent : SaysPriority none 0
  | numeral {text : String} {before numeral after : List Char} {n : Int32} :
      text.toList = before ++ numeral ++ after → (∀ c ∈ before ++ after, Text.isBlank c = true) →
        Text.IsSigned numeral n.toInt → SaysPriority (some text) n

/-- The truth that an attribute says; one that is not there is false. -/
inductive SaysTruth : Option String → Bool → Prop
  | absent : SaysTruth none false
  | true {text : String} : text ∈ ["true", "1"] → SaysTruth (some text) true
  | false {text : String} : text ∈ ["false", "0"] → SaysTruth (some text) false

namespace Reader

open Markup (Element)

variable {α : Type} {e : Element}

/-! ## Attributes and children -/

theorem requireAttribute_eq_ok_iff {key value : String} :
    requireAttribute e key = .ok value ↔ e.attribute? key = some value := by
  rw [requireAttribute]
  cases e.attribute? key <;> simp

theorem requireChild_eq_ok_iff {path : String} {child : Element} :
    requireChild e path = .ok child ↔ e.selectFirst? path = some child := by
  rw [requireChild]
  cases e.selectFirst? path <;> simp

theorem valueOr_eq_ok_iff {kind : ValueKind} {text : String} {value? : Option α} {value : α} :
    valueOr kind text value? = .ok value ↔ value? = some value := by
  cases value? <;> simp [valueOr]

/-- A value is what the text of its attribute stands for. -/
theorem requireValue_eq_ok_iff {kind : ValueKind} {ofText? : String → Option α} {key : String}
    {value : α} :
    requireValue kind ofText? e key = .ok value ↔
      ∃ text, e.attribute? key = some text ∧ ofText? text = some value := by
  simp only [requireValue, bind_eq_ok_iff, requireAttribute_eq_ok_iff, valueOr_eq_ok_iff]

theorem versionOf_eq_ok_iff {text : String} {v : Version} :
    versionOf text = .ok v ↔ Version.parse? text = some v := by
  rw [versionOf]
  cases Version.parse? text <;> simp

/-- A text that is no version is named in the error. -/
theorem versionOf_eq_error_iff {text : String} {err : ConfigError} :
    versionOf text = .error err ↔ err = .badVersion text ∧ Version.parse? text = none := by
  rw [versionOf]
  cases Version.parse? text <;> simp [eq_comm]

theorem requireVersion_eq_ok_iff {v : Version} :
    requireVersion e = .ok v ↔
      ∃ text, e.attribute? "version" = some text ∧ Version.parse? text = some v := by
  simp only [requireVersion, bind_eq_ok_iff, requireAttribute_eq_ok_iff, versionOf_eq_ok_iff]

theorem requireOperator_eq_ok_iff {o : Operator} :
    requireValue .operator Operator.ofName? e "operator" = .ok o ↔
      e.attribute? "operator" = some o.name := by
  simp only [requireValue_eq_ok_iff, Operator.ofName?_eq_some_iff, exists_eq_right]

theorem requireType_eq_ok_iff {t : PluginType} :
    requireType e = .ok t ↔ e.attribute? "name" = some t.name := by
  simp only [requireType, requireValue_eq_ok_iff, PluginType.ofName?_eq_some_iff, exists_eq_right]

theorem requireGroupType_eq_ok_iff {t : GroupType} :
    requireValue .groupType GroupType.ofName? e "type" = .ok t ↔
      e.attribute? "type" = some t.name := by
  simp only [requireValue_eq_ok_iff, GroupType.ofName?_eq_some_iff, exists_eq_right]

/-! ## Predicates -/

/-- A test of a file asks for the name in lower case. -/
theorem filePredicate_eq_ok_iff {p : Predicate} :
    filePredicate e = .ok p ↔
      ∃ file state, e.attribute? "file" = some file ∧
        e.attribute? "state" = some (FileState.name state) ∧
        p = .file (Text.lowercase file) state := by
  simp only [filePredicate, bind_eq_ok_iff, pure_eq_ok_iff, requireAttribute_eq_ok_iff,
    requireValue_eq_ok_iff, FileState.ofName?_eq_some_iff, exists_eq_right, Predicate.fileIs]
  constructor
  · rintro ⟨file, hf, state, hs, rfl⟩
    exact ⟨file, state, hf, hs, rfl⟩
  · rintro ⟨file, state, hf, hs, rfl⟩
    exact ⟨file, hf, state, hs, rfl⟩

/-- A test of a flag asks for name and value as they are written. -/
theorem flagPredicate_eq_ok_iff {p : Predicate} :
    flagPredicate e = .ok p ↔
      ∃ name value, e.attribute? "flag" = some name ∧ e.attribute? "value" = some value ∧
        p = .flag name value := by
  simp only [flagPredicate, bind_eq_ok_iff, pure_eq_ok_iff, requireAttribute_eq_ok_iff]
  constructor
  · rintro ⟨name, hn, value, hv, rfl⟩
    exact ⟨name, value, hn, hv, rfl⟩
  · rintro ⟨name, value, hn, hv, rfl⟩
    exact ⟨name, hn, value, hv, rfl⟩

/-! ## Files and flags -/

/-- What a text says does not depend on the blanks around it. -/
theorem int32?_trim_eq_some_iff {text : String} {n : Int32} :
    Text.int32? (Text.trim text.toList) = some n ↔ SaysPriority (some text) n := by
  rw [Text.int32?_eq_some_iff]
  constructor
  · intro h
    obtain ⟨before, after, htext, hblank⟩ := Text.exists_blanks text.toList
    exact .numeral htext hblank h
  · rintro (_ | ⟨htext, hblank, h⟩)
    rw [htext, Text.trim_of_blanks hblank fun c hc => h.isBlank_eq_false hc]
    exact h

/-- **A priority is read as what its attribute says.** -/
theorem readPriority_eq_ok_iff {n : Int32} :
    readPriority e = .ok n ↔ SaysPriority (e.attribute? "priority") n := by
  rw [readPriority]
  cases e.attribute? "priority" with
  | none =>
      constructor
      · rintro ⟨⟩
        exact .absent
      · rintro ⟨⟩
        rfl
  | some text =>
      dsimp only
      rw [valueOr_eq_ok_iff, int32?_trim_eq_some_iff]

/-- Truths are written in words or as digits. -/
theorem truth?_eq_some_iff {text : String} {b : Bool} :
    truth? text = some b ↔ SaysTruth (some text) b := by
  constructor
  · intro h
    rw [truth?] at h
    split_ifs at h with htrue hfalse
    · obtain rfl := Option.some.inj h
      exact .true (by simpa using htrue)
    · obtain rfl := Option.some.inj h
      exact .false (by simpa using hfalse)
  · intro h
    cases h with
    | true h => exact if_pos (by simpa using h)
    | false h =>
        rcases List.mem_pair.mp h with rfl | rfl <;> rfl

/-- A truth is read as what its attribute says, and is false without one. -/
theorem readTruth_eq_ok_iff {key : String} {b : Bool} :
    readTruth e key = .ok b ↔ SaysTruth (e.attribute? key) b := by
  rw [readTruth]
  cases e.attribute? key with
  | none =>
      constructor
      · rintro ⟨⟩
        exact .absent
      · rintro ⟨⟩
        rfl
  | some text =>
      dsimp only
      rw [valueOr_eq_ok_iff, truth?_eq_some_iff]

/-- The name of the node tells files from folders. -/
theorem fileKind?_eq_some_iff {name : String} {kind : FileKind} :
    fileKind? name = some kind ↔ (name, kind) ∈ [("file", FileKind.file), ("folder", .folder)] := by
  simp only [fileKind?]
  cases kind <;> split_ifs <;> grind

/-- A flag has the name that is written, and for its value the content of its
    element. -/
theorem flag_eq_ok_iff {f : ConditionFlag} :
    flag e = .ok f ↔ e.attribute? "name" = some f.name ∧ e.content = f.value := by
  simp only [flag, bind_eq_ok_iff, pure_eq_ok_iff, requireAttribute_eq_ok_iff]
  constructor
  · rintro ⟨name, hn, rfl⟩
    exact ⟨hn, rfl⟩
  · rintro ⟨hn, hv⟩
    exact ⟨f.name, hn, by rw [hv]⟩

end Reader

end ModInstall
