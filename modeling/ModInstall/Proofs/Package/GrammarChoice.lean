import ModInstall.Proofs.Package.Values
import ModInstall.Proofs.Text.Split

/-! # Which grammar reads a document

    A document names its version in the location of its schema, and
    `NamesVersion` says how: the location is a directory, `ModConfig`, the
    version and `.xsd`.  The version is free of separators, so the directory
    ends where the last separator stands, and no location names two versions.
    The fallback is asked for only where the document names none; what it
    names is taken even when no grammar reads it. -/

namespace ModInstall

open Markup (Element Document)

namespace Grammar

/-- The location of a schema names a version. -/
structure NamesVersion (location version : String) : Prop where
  ne_empty     : version ≠ ""
  no_separator : ∀ c ∈ version.toList, c ≠ '/' ∧ c ≠ '\\'
  directory    : ∃ dir : String, location = dir ++ "ModConfig" ++ version ++ ".xsd" ∧
    ∀ c ∈ dir.toList.getLast?, c = '/' ∨ c = '\\'

/-- A document declares a version: the first attribute of its root for the
    location of a schema names it. -/
def Declares (d : Document) (version : String) : Prop :=
  ∃ location before after,
    d.root.attributes = before ++ ("noNamespaceSchemaLocation", location) :: after ∧
      (∀ a ∈ before, a.1 ≠ "noNamespaceSchemaLocation") ∧ NamesVersion location version

/-- The version that a grammar is chosen for: the declared one, or the fallback
    where none is declared. -/
inductive Chosen (d : Document) (options : Options) : String → Prop
  | declared {version : String} : Declares d version → Chosen d options version
  | fallback {version : String} :
      (∀ version', ¬Declares d version') → options.fallbackVersion = some version →
        Chosen d options version

variable {d : Document} {options : Options} {location version : String}

/-! ## The declared version -/

theorem not_separator_iff (cs : List Char) :
    (∀ c ∈ cs, (c == '/' || c == '\\') = false) ↔ ∀ c ∈ cs, c ≠ '/' ∧ c ≠ '\\' := by
  simp only [Bool.or_eq_false_iff, beq_eq_false_iff_ne]

/-- A version is read off a location when its last part names one. -/
theorem versionOfLocation?_eq_some_iff :
    versionOfLocation? location = some version ↔ NamesVersion location version := by
  simp only [versionOfLocation?, Option.bind_eq_bind, Option.bind_eq_some_iff,
    Text.getLast?_pieces_eq_some_iff, Text.dropLead?_eq_some_iff, Text.dropTail?_eq_some_iff,
    not_separator_iff, Bool.or_eq_true, beq_iff_eq]
  constructor
  -- behind the last separator the name of a file is left, and before it a directory
  · rintro ⟨file, ⟨hfile, dir, hlocation, hdir⟩, numbered, rfl, cs, rfl, hversion⟩
    split at hversion
    · exact nomatch hversion
    · next hne =>
        obtain rfl := Option.some.inj hversion
        refine ⟨?_, ?_, String.ofList dir, ?_, ?_⟩
        · simpa using hne
        · intro c hc
          rw [String.toList_ofList] at hc
          exact hfile c (List.mem_append_right _ (List.mem_append_left _ hc))
        · apply String.toList_injective
          simp [hlocation]
        · rwa [String.toList_ofList]
  · rintro ⟨hne, hsep, dir, rfl, hdir⟩
    refine ⟨"ModConfig".toList ++ (version.toList ++ ".xsd".toList), ⟨?_, dir.toList, ?_, hdir⟩,
      _, rfl, version.toList, rfl, ?_⟩
    · rw [List.forall_mem_append, List.forall_mem_append]
      exact ⟨by simp, hsep, by simp⟩
    · simp only [String.toList_append, List.append_assoc]
    · rw [if_neg (mt String.toList_eq_nil_iff.mp hne), String.ofList_toList]

/-- The version that is found is the one that the document declares. -/
theorem declaredVersion?_eq_some_iff :
    declaredVersion? d = some version ↔ Declares d version := by
  simp only [declaredVersion?, Option.bind_eq_some_iff, Element.attribute?,
    List.lookup_eq_some_iff, versionOfLocation?_eq_some_iff, bne_iff_ne]
  constructor
  · rintro ⟨location, ⟨before, after, hattributes, hbefore⟩, hnames⟩
    exact ⟨location, before, after, hattributes, fun a ha => (hbefore a ha).symm, hnames⟩
  · rintro ⟨location, before, after, hattributes, hbefore, hnames⟩
    exact ⟨location, ⟨before, after, hattributes, fun a ha => (hbefore a ha).symm⟩, hnames⟩

/-- None is found only where none is declared. -/
theorem declaredVersion?_eq_none_iff :
    declaredVersion? d = none ↔ ∀ version, ¬Declares d version := by
  simp only [Option.eq_none_iff_forall_ne_some, ne_eq, declaredVersion?_eq_some_iff]

/-- A document declares one version at most. -/
theorem Declares.unique {version' : String} (h : Declares d version) (h' : Declares d version') :
    version = version' :=
  Option.some.inj ((declaredVersion?_eq_some_iff.mpr h).symm.trans
    (declaredVersion?_eq_some_iff.mpr h'))

/-! ## The chosen version -/

/-- A fallback counts only where nothing is declared. -/
theorem chosen_iff :
    Chosen d options version ↔ (declaredVersion? d).or options.fallbackVersion = some version := by
  constructor
  · rintro (hd | ⟨hnone, hf⟩)
    · rw [declaredVersion?_eq_some_iff.mpr hd, Option.some_or]
    · rw [declaredVersion?_eq_none_iff.mpr hnone, Option.none_or, hf]
  · intro h
    rcases Option.or_eq_some_iff.mp h with hd | ⟨hnone, hf⟩
    · exact .declared (declaredVersion?_eq_some_iff.mp hd)
    · exact .fallback (declaredVersion?_eq_none_iff.mp hnone) hf

/-- A grammar is found by its version, blanks around it aside. -/
theorem forVersion?_eq_some_iff {text : String} {g : Grammar} :
    forVersion? text = some g ↔ Text.trimmed text = g.version :=
  find?_name_eq_some_iff fun g => by cases g <;> rfl

/-- The versions that grammars have. -/
theorem exists_version_iff {text : String} :
    (∃ g : Grammar, text = g.version) ↔ text ∈ ["1.0", "2.0", "3.0"] := by
  constructor
  · rintro ⟨g, rfl⟩
    cases g <;> decide
  · intro h
    simp only [List.mem_cons, List.not_mem_nil, or_false] at h
    rcases h with rfl | rfl | rfl
    · exact ⟨.v1, rfl⟩
    · exact ⟨.v2, rfl⟩
    · exact ⟨.v3, rfl⟩

/-- Three versions have a grammar. -/
theorem forVersion?_eq_none_iff {text : String} :
    forVersion? text = none ↔ Text.trimmed text ∉ ["1.0", "2.0", "3.0"] := by
  simp only [Option.eq_none_iff_forall_ne_some, ne_eq, forVersion?_eq_some_iff,
    ← exists_version_iff, not_exists]

end Grammar

namespace Reader

open Grammar

variable {d : Document} {options : Options} {version : String}

/-- Once a version is chosen, there is a grammar for it or it is not
    supported. -/
theorem forDocument_of_chosen (h : Chosen d options version) :
    forDocument d options =
      match forVersion? version with
      | none         => .error (.unsupportedVersion version)
      | some grammar => .ok { grammar, options } := by
  have hversion := chosen_iff.mp h
  cases hg : forVersion? version with
  | none => simp only [forDocument, hversion, hg]
  | some grammar => simp only [forDocument, hversion, hg]

/-- Without a version there is no grammar to ask for. -/
theorem forDocument_of_not_chosen (h : ∀ version, ¬Chosen d options version) :
    forDocument d options = .error .undeclaredVersion := by
  have hnone : (declaredVersion? d).or options.fallbackVersion = none := by
    rw [Option.eq_none_iff_forall_ne_some]
    exact fun version hv => h version (chosen_iff.mpr hv)
  rw [forDocument, hnone]

/-- A document has a reader when the version that is chosen has a grammar. -/
theorem forDocument_eq_ok_iff {r : Reader} :
    forDocument d options = .ok r ↔
      ∃ version, Chosen d options version ∧ Text.trimmed version = r.grammar.version ∧
        r = { grammar := r.grammar, options } := by
  constructor
  · intro h
    by_cases hv : ∃ version, Chosen d options version
    · obtain ⟨version, hv⟩ := hv
      rw [forDocument_of_chosen hv] at h
      split at h
      · exact nomatch h
      · next g hg =>
          obtain rfl := Except.ok.inj h
          exact ⟨version, hv, forVersion?_eq_some_iff.mp hg, rfl⟩
    · rw [forDocument_of_not_chosen (not_exists.mp hv)] at h
      exact nomatch h
  · rintro ⟨version, hv, hg, hr⟩
    rw [forDocument_of_chosen hv, forVersion?_eq_some_iff.mpr hg, hr]

/-- A version that is not supported is named as it is written. -/
theorem forDocument_eq_unsupported_iff :
    forDocument d options = .error (.unsupportedVersion version) ↔
      Chosen d options version ∧ Text.trimmed version ∉ ["1.0", "2.0", "3.0"] := by
  constructor
  · intro h
    by_cases hv : ∃ version', Chosen d options version'
    · obtain ⟨version', hv⟩ := hv
      rw [forDocument_of_chosen hv] at h
      split at h
      · next hnone =>
          obtain rfl := ConfigError.unsupportedVersion.inj (Except.error.inj h)
          exact ⟨hv, forVersion?_eq_none_iff.mp hnone⟩
      · exact nomatch h
    · rw [forDocument_of_not_chosen (not_exists.mp hv)] at h
      exact nomatch h
  · rintro ⟨hv, hunknown⟩
    rw [forDocument_of_chosen hv, forVersion?_eq_none_iff.mpr hunknown]

/-- A document is said to declare nothing exactly when no version can be
    chosen. -/
theorem forDocument_eq_undeclared_iff :
    forDocument d options = .error .undeclaredVersion ↔ ∀ version, ¬Chosen d options version := by
  constructor
  · intro h version hv
    rw [forDocument_of_chosen hv] at h
    split at h
    · exact nomatch h
    · exact nomatch h
  · exact forDocument_of_not_chosen

/-- **A grammar is chosen by the version that is named.**  The version that a
    document declares is the one in the location of its schema, and there is
    no more than one.  A reader is given exactly when the declared version, or
    else the fallback, is that of a grammar with or without blanks around it,
    and then it has that grammar and the given options.  Without a version
    that is the error, and a version that no grammar has is named in it as it
    was written, whatever the fallback is. -/
theorem forDocument_by_version (d : Document) (options : Options) :
    (∀ version, declaredVersion? d = some version ↔ Declares d version) ∧
    (∀ version version', Declares d version → Declares d version' → version = version') ∧
    ((∃ r, forDocument d options = .ok r) ↔
      ∃ version, Chosen d options version ∧ Text.trimmed version ∈ ["1.0", "2.0", "3.0"]) ∧
    (∀ r, forDocument d options = .ok r → r.options = options ∧
      ∃ version, Chosen d options version ∧ r.grammar.version = Text.trimmed version) ∧
    (forDocument d options = .error .undeclaredVersion ↔
      ∀ version, ¬Chosen d options version) ∧
    (∀ version, forDocument d options = .error (.unsupportedVersion version) ↔
      Chosen d options version ∧ Text.trimmed version ∉ ["1.0", "2.0", "3.0"]) ∧
    (∀ version, Declares d version → Text.trimmed version ∉ ["1.0", "2.0", "3.0"] →
      ∀ fallback, forDocument d { options with fallbackVersion := fallback }
        = .error (.unsupportedVersion version)) := by
  refine ⟨fun _ => declaredVersion?_eq_some_iff, fun _ _ h h' => h.unique h', ?reads, ?reader,
    forDocument_eq_undeclared_iff, fun _ => forDocument_eq_unsupported_iff, ?declared⟩
  case reads =>
    simp only [forDocument_eq_ok_iff, ← exists_version_iff]
    constructor
    · rintro ⟨r, version, hv, hg, -⟩
      exact ⟨version, hv, r.grammar, hg⟩
    · rintro ⟨version, hv, g, hg⟩
      exact ⟨{ grammar := g, options }, version, hv, hg, rfl⟩
  case reader =>
    intro r hr
    obtain ⟨version, hv, hg, hr⟩ := forDocument_eq_ok_iff.mp hr
    exact ⟨by rw [hr], version, hv, hg.symm⟩
  case declared =>
    intro version hd hunknown fallback
    exact forDocument_eq_unsupported_iff.mpr ⟨.declared hd, hunknown⟩

/-- A document with two locations of schemas, of which the first counts. -/
def twoLocations : Document where
  root := {
    name := "config"
    attributes := [
      ("noNamespaceSchemaLocation", "a/ModConfig1.0.xsd\\ModConfig9.0 .xsd"),
      ("noNamespaceSchemaLocation", "ModConfig2.0.xsd")] }

/-- The version in the last segment of the first location is the declared one,
    blanks included, and no fallback stands in for it. -/
theorem forDocument_by_version_twoLocations :
    Declares twoLocations "9.0 " ∧ Text.trimmed "9.0 " ∉ ["1.0", "2.0", "3.0"] ∧
    forDocument twoLocations { fallbackVersion := some "2.0" }
      = .error (.unsupportedVersion "9.0 ") := by
  obtain ⟨hdeclares, -, -, -, -, -, hkept⟩ := forDocument_by_version twoLocations {}
  have hd : Declares twoLocations "9.0 " := (hdeclares "9.0 ").mp (by decide)
  have hunknown : Text.trimmed "9.0 " ∉ ["1.0", "2.0", "3.0"] := by decide
  exact ⟨hd, hunknown, hkept "9.0 " hd hunknown (some "2.0")⟩

end Reader

end ModInstall
