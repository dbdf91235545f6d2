import ModInstall.Proofs.Markup.Select
import ModInstall.Proofs.Package.ConditionGrammar
import ModInstall.Proofs.Package.Parts

/-! # A package follows its document

    What a record of a package owes to the element that it was read from is
    said here apart from the readers, one relation for each kind of record.
    Where a record has a list, its items correspond to elements of the document
    one by one (`Forall₂`), so no element is passed over, read twice or put in
    another place.

    Each reader gives a record exactly when the record follows the element, and
    so does the reader of packages (`package_eq_ok_iff_follows`).  The plugins
    of all groups stand in a list of lists, in the package as in the document,
    and correspond since paths may be followed in stages. -/

namespace ModInstall

open Markup (Element Document)

/-! ## What records owe to elements -/

/-- An entry of a file list. -/
structure FileEntry.Follows (e : Element) (f : FileEntry) : Prop where
  kind : (e.name, f.kind) ∈ [("file", FileKind.file), ("folder", .folder)]
  source : e.attribute? "source" = some f.source
  destination : f.destination = (e.attribute? "destination").getD f.source
  priority : SaysPriority (e.attribute? "priority") f.priority
  alwaysInstall : SaysTruth (e.attribute? "alwaysInstall") f.alwaysInstall
  installIfUsable : SaysTruth (e.attribute? "installIfUsable") f.installIfUsable

/-- A flag that a plugin sets. -/
structure ConditionFlag.Follows (e : Element) (f : ConditionFlag) : Prop where
  name : e.attribute? "name" = some f.name
  value : e.content = f.value

/-- An image that an element names, if there is one. -/
inductive Image.Follows (load : Image.Loader) : Option Element → Option Image → Prop
  | absent : Follows load none none
  | loaded {e : Element} {path : String} {i : Image} :
      e.attribute? "path" = some path → load path = .ok i → Follows load (some e) (some i)

/-- A requirement of the whole package.  What the grammar has no form for is as
    the host makes it. -/
inductive Predicate.Follows (r : Reader) (e : Element) : Predicate → Prop
  | file {file : String} :
      r.grammar.packageForm? e.name = some .file → e.attribute? "file" = some file →
      Follows r e (.file (Text.lowercase file) .active)
  | gameVersion {text : String} {wanted : Version} :
      r.grammar.packageForm? e.name = some .gameVersion → e.attribute? "version" = some text →
      Version.parse? text = some wanted → Follows r e (.gameVersion wanted)
  | managerVersion {text : String} {wanted : Version} :
      r.grammar.packageForm? e.name = some .managerVersion → e.attribute? "version" = some text →
      Version.parse? text = some wanted → Follows r e (.managerVersion wanted)
  | host {p : Predicate} :
      r.grammar.packageForm? e.name = none → r.extension e = some p → Follows r e p

/-- The condition of a pattern, which may nest as deep as the options allow. -/
def Requirement.Follows (r : Reader) (e : Element) (q : Requirement) : Prop :=
  ∃ c, e.selectFirst? "dependencies" = some c ∧ r.grammar.Mirrors c q ∧
    Grammar.groupLevels c ≤ r.options.maxConditionDepth

/-- A type pattern. -/
structure TypePattern.Follows (r : Reader) (e : Element) (t : TypePattern) : Prop where
  type : ∃ c, e.selectFirst? "type" = some c ∧ c.attribute? "name" = some t.type.name
  condition : t.condition.Follows r e

/-- A type rule. -/
inductive TypeRule.Follows (r : Reader) (e : Element) : TypeRule → Prop
  | fixed {type : PluginType} :
      e.name = "type" → e.attribute? "name" = some type.name → Follows r e (.fixed type)
  | computed {c : Element} {default : PluginType} {patterns : List TypePattern} :
      r.grammar ≠ .v1 → e.name = "dependencyType" → e.selectFirst? "defaultType" = some c →
      c.attribute? "name" = some default.name →
      List.Forall₂ (TypePattern.Follows r) (e.select "patterns/*") patterns →
      Follows r e (.computed default patterns)

/-- A plugin.  Version 1 of the format passes over flags. -/
structure Plugin.Follows (r : Reader) (e : Element) (p : Plugin) : Prop where
  name : e.attribute? "name" = some p.name
  description : ∃ c, e.selectFirst? "description" = some c ∧ p.description = r.describe c.text
  typeRule : ∃ c descriptor, e.selectFirst? "typeDescriptor" = some descriptor ∧
    descriptor.children.head? = some c ∧ p.typeRule.Follows r c
  image : Image.Follows r.images (e.selectFirst? "image") p.image
  files : List.Forall₂ FileEntry.Follows (e.select "files/*") p.files
  flags : List.Forall₂ ConditionFlag.Follows
    (if r.grammar = .v1 then [] else e.select "conditionFlags/*") p.flags

/-- A group of plugins. -/
structure PluginGroup.Follows (r : Reader) (e : Element) (g : PluginGroup) : Prop where
  name : e.attribute? "name" = some g.name
  type : e.attribute? "type" = some g.type.name
  plugins : List.Forall₂ (Plugin.Follows r) (e.select "plugins/*") g.plugins

/-- A pattern of conditional files. -/
structure ConditionalFiles.Follows (r : Reader) (e : Element) (c : ConditionalFiles) : Prop where
  condition : c.condition.Follows r e
  files : List.Forall₂ FileEntry.Follows (e.select "files/*") c.files

/-- A package.  Version 1 of the format passes over conditional files. -/
structure Package.Follows (r : Reader) (d : Document) (p : Package) : Prop where
  version : p.version = r.grammar.version
  name : ∃ c, d.selectFirst? "/config/moduleName" = some c ∧ p.name = Text.trimmed c.text
  image : Image.Follows r.images (d.selectFirst? "/config/moduleImage") p.image
  operator : p.requirements.operator = .all
  requirements : List.Forall₂ (fun e c => ∃ q : Predicate, c = .atom q ∧ q.Follows r e)
    (d.select "/config/moduleDependencies/*") p.requirements.members
  requiredFiles : List.Forall₂ FileEntry.Follows
    (d.select "/config/requiredInstallFiles/*") p.requiredFiles
  groups : List.Forall₂ (PluginGroup.Follows r) (d.select "/config/groups/*") p.groups
  conditionalFiles : List.Forall₂ (ConditionalFiles.Follows r)
    (if r.grammar = .v1 then [] else d.select "/config/conditionalFileInstalls/patterns/*")
    p.conditionalFiles

/-- The plugins of all groups correspond to the elements that the joined path
    leads to. -/
theorem Package.Follows.plugins {r : Reader} {d : Document} {p : Package} (h : p.Follows r d) :
    List.Forall₂ (Plugin.Follows r) (d.select "/config/groups/*/plugins/*") p.plugins := by
  have hstages : d.select "/config/groups/*/plugins/*"
      = (d.select "/config/groups/*").flatMap (·.select "plugins/*") :=
    d.select_join (p := "/config/groups/*") (by decide) "plugins/*"
  rw [hstages]
  exact List.rel_flatMap h.groups fun _ _ hg => hg.plugins

namespace Reader

open Grammar

variable {r : Reader} {d : Document} {e : Element}

/-! ## What readers of records give -/

/-- **An entry is read when it follows its element**, and to nothing else. -/
theorem fileEntry_eq_ok_iff {f : FileEntry} : fileEntry e = .ok f ↔ f.Follows e := by
  constructor
  · intro h
    rw [fileEntry] at h
    cases hk : fileKind? e.name with
    | none =>
        rw [hk] at h
        exact nomatch h
    | some kind =>
        rw [hk] at h
        simp only [bind_eq_ok_iff, pure_eq_ok_iff, requireAttribute_eq_ok_iff,
          readPriority_eq_ok_iff, readTruth_eq_ok_iff] at h
        obtain ⟨source, hs, priority, hp, always, ha, usable, hu, rfl⟩ := h
        exact ⟨fileKind?_eq_some_iff.mp hk, hs, rfl, hp, ha, hu⟩
  · rintro ⟨hk, hs, hd, hp, ha, hu⟩
    simp only [fileEntry, fileKind?_eq_some_iff.mpr hk, bind_eq_ok_iff, pure_eq_ok_iff,
      requireAttribute_eq_ok_iff, readPriority_eq_ok_iff, readTruth_eq_ok_iff]
    refine ⟨_, hs, _, hp, _, ha, _, hu, ?_⟩
    rw [← hd]

theorem files_eq_ok_iff {fs : List FileEntry} :
    (e.select "files/*").mapM fileEntry = .ok fs ↔
      List.Forall₂ FileEntry.Follows (e.select "files/*") fs := by
  simp only [mapM_eq_ok_iff, fileEntry_eq_ok_iff]

/-- A flag is read when it follows its element. -/
theorem flag_eq_ok_iff_follows {f : ConditionFlag} : flag e = .ok f ↔ f.Follows e := by
  rw [flag_eq_ok_iff]
  exact ⟨fun ⟨hn, hv⟩ => ⟨hn, hv⟩, fun ⟨hn, hv⟩ => ⟨hn, hv⟩⟩

/-- Flags are read in the order of their elements, and by the first grammar not
    at all. -/
theorem flagsOf_eq_ok_iff {fs : List ConditionFlag} :
    r.flagsOf e = .ok fs ↔ List.Forall₂ ConditionFlag.Follows
      (if r.grammar = .v1 then [] else e.select "conditionFlags/*") fs := by
  rw [flagsOf, readsFlags_eq]
  by_cases hg : r.grammar = .v1
  · simp [hg, eq_comm]
  · simp [hg, mapM_eq_ok_iff, flag_eq_ok_iff_follows]

/-- An image is what the loader makes of the path. -/
theorem imageOf?_eq_ok_iff {e? : Option Element} {i? : Option Image} :
    r.imageOf? e? = .ok i? ↔ Image.Follows r.images e? i? := by
  cases e? with
  | none =>
      constructor
      · rintro ⟨⟩
        exact .absent
      · rintro ⟨⟩
        rfl
  | some e =>
      simp only [imageOf?, image, map_eq_ok_iff, bind_eq_ok_iff, requireAttribute_eq_ok_iff,
        mapError_eq_ok_iff]
      constructor
      · rintro ⟨i, ⟨path, hp, hi⟩, rfl⟩
        exact .loaded hp hi
      · rintro (_ | ⟨hp, hi⟩)
        exact ⟨_, ⟨_, hp, hi⟩, rfl⟩

/-- A requirement of the package is one that the grammar knows, or one of the
    host. -/
theorem packageRequirement_eq_ok_iff {q : Predicate} :
    r.packageRequirement e = .ok q ↔ q.Follows r e := by
  constructor
  · intro h
    rw [packageRequirement] at h
    -- the host is asked only where the grammar has no form
    cases hf : r.grammar.packageForm? e.name with
    | none =>
        rw [hf] at h
        cases hx : r.extension e with
        | none =>
            rw [hx] at h
            exact nomatch h
        | some p =>
            rw [hx] at h
            obtain rfl := Except.ok.inj h
            exact .host hf hx
    | some form =>
        rw [hf] at h
        cases form with
        | file =>
            obtain ⟨file, hfile, h⟩ := bind_eq_ok_iff.mp h
            obtain rfl := pure_eq_ok_iff.mp h
            exact .file hf (requireAttribute_eq_ok_iff.mp hfile)
        | gameVersion =>
            obtain ⟨wanted, hwanted, rfl⟩ := map_eq_ok_iff.mp h
            obtain ⟨text, ht, hv⟩ := requireVersion_eq_ok_iff.mp hwanted
            exact .gameVersion hf ht hv
        | managerVersion =>
            obtain ⟨wanted, hwanted, rfl⟩ := map_eq_ok_iff.mp h
            obtain ⟨text, ht, hv⟩ := requireVersion_eq_ok_iff.mp hwanted
            exact .managerVersion hf ht hv
  · intro h
    cases h with
    | file hf hfile =>
        rw [packageRequirement, hf]
        exact bind_eq_ok_iff.mpr ⟨_, requireAttribute_eq_ok_iff.mpr hfile, rfl⟩
    | gameVersion hf ht hv | managerVersion hf ht hv =>
        rw [packageRequirement, hf]
        exact map_eq_ok_iff.mpr ⟨_, requireVersion_eq_ok_iff.mpr ⟨_, ht, hv⟩, rfl⟩
    | host hf hx =>
        rw [packageRequirement, hf, hx]

/-- The requirements of the package are one group of all, in the order of their
    elements. -/
theorem packageRequirements_eq_ok_iff {q : Requirement} :
    r.packageRequirements d = .ok q ↔
      q.operator = .all ∧ List.Forall₂ (fun e c => ∃ p : Predicate, c = .atom p ∧ p.Follows r e)
        (d.select "/config/moduleDependencies/*") q.members := by
  simp only [packageRequirements_eq_ok_iff_each, packageRequirement_eq_ok_iff]

/-- A condition is that of the first group in its pattern. -/
theorem condition_eq_ok_iff {q : Requirement} :
    (∃ c, e.selectFirst? "dependencies" = some c ∧ r.requirement c = .ok q) ↔ q.Follows r e := by
  simp only [requirement_eq_ok_iff, Requirement.Follows]

theorem typePattern_eq_ok_iff_follows {t : TypePattern} :
    r.typePattern e = .ok t ↔ t.Follows r e := by
  rw [typePattern_eq_ok_iff, condition_eq_ok_iff]
  simp only [requireType_eq_ok_iff]
  exact ⟨fun ⟨ht, hc⟩ => ⟨ht, hc⟩, fun ⟨ht, hc⟩ => ⟨ht, hc⟩⟩

theorem typeRule_eq_ok_iff {t : TypeRule} : r.typeRule e = .ok t ↔ t.Follows r e := by
  rw [typeRule, typeForm?_eq]
  split_ifs with hfixed hcomputed
  · simp only [map_eq_ok_iff, requireType_eq_ok_iff]
    constructor
    · rintro ⟨type, ht, rfl⟩
      exact .fixed hfixed ht
    · intro h
      cases h with
      | fixed _ ht => exact ⟨_, ht, rfl⟩
      | computed _ hn => exact absurd (hfixed.symm.trans hn) (by decide)
  · simp only [bind_eq_ok_iff, pure_eq_ok_iff, requireChild_eq_ok_iff, requireType_eq_ok_iff,
      mapM_eq_ok_iff, typePattern_eq_ok_iff_follows]
    constructor
    · rintro ⟨c, hc, default, hd, patterns, hp, rfl⟩
      exact .computed hcomputed.2 hcomputed.1 hc hd hp
    · intro h
      cases h with
      | fixed hn => exact absurd hn hfixed
      | computed _ _ hc hd hp => exact ⟨_, hc, _, hd, _, hp, rfl⟩
  · -- a rule of no form is refused, and nothing follows it
    constructor
    · rintro ⟨⟩
    · intro h
      cases h with
      | fixed hn => exact absurd hn hfixed
      | computed hg hn => exact absurd ⟨hn, hg⟩ hcomputed

theorem plugin_eq_ok_iff_follows {p : Plugin} : r.plugin e = .ok p ↔ p.Follows r e := by
  simp only [plugin_eq_ok_iff, typeElement_eq_ok_iff, typeRule_eq_ok_iff, imageOf?_eq_ok_iff,
    files_eq_ok_iff, flagsOf_eq_ok_iff]
  constructor
  · rintro ⟨hn, hd, ⟨c, ⟨descriptor, hdesc, hc⟩, ht⟩, hi, hfiles, hflags⟩
    exact ⟨hn, hd, ⟨c, descriptor, hdesc, hc, ht⟩, hi, hfiles, hflags⟩
  · rintro ⟨hn, hd, ⟨c, descriptor, hdesc, hc, ht⟩, hi, hfiles, hflags⟩
    exact ⟨hn, hd, ⟨c, ⟨descriptor, hdesc, hc⟩, ht⟩, hi, hfiles, hflags⟩

theorem group_eq_ok_iff_follows {g : PluginGroup} : r.group e = .ok g ↔ g.Follows r e := by
  simp only [group_eq_ok_iff, requireGroupType_eq_ok_iff, mapM_eq_ok_iff,
    plugin_eq_ok_iff_follows]
  exact ⟨fun ⟨hn, ht, hp⟩ => ⟨hn, ht, hp⟩, fun ⟨hn, ht, hp⟩ => ⟨hn, ht, hp⟩⟩

theorem conditionalPattern_eq_ok_iff_follows {c : ConditionalFiles} :
    r.conditionalPattern e = .ok c ↔ c.Follows r e := by
  rw [conditionalPattern_eq_ok_iff, condition_eq_ok_iff, files_eq_ok_iff]
  exact ⟨fun ⟨hc, hf⟩ => ⟨hc, hf⟩, fun ⟨hc, hf⟩ => ⟨hc, hf⟩⟩

/-- Patterns for files are read in the order of their elements, and by the
    first grammar not at all. -/
theorem conditionalFiles_eq_ok_iff {cs : List ConditionalFiles} :
    r.conditionalFiles d = .ok cs ↔ List.Forall₂ (ConditionalFiles.Follows r)
      (if r.grammar = .v1 then [] else d.select "/config/conditionalFileInstalls/patterns/*")
      cs := by
  rw [conditionalFiles, conditionalFilesPath_eq]
  by_cases hg : r.grammar = .v1
  · simp [hg, eq_comm]
  · simp [hg, mapM_eq_ok_iff, conditionalPattern_eq_ok_iff_follows]

/-- The name of the package is the text of its element, trimmed. -/
theorem packageName_eq_ok_iff {name : String} :
    packageName d = .ok name ↔
      ∃ c, d.selectFirst? "/config/moduleName" = some c ∧ name = Text.trimmed c.text := by
  rw [packageName]
  cases d.selectFirst? "/config/moduleName" <;> simp [eq_comm]

/-- **What the reader reads**: exactly the packages that follow the document. -/
theorem package_eq_ok_iff_follows {p : Package} : r.package d = .ok p ↔ p.Follows r d := by
  simp only [package_eq_ok_iff, packageName_eq_ok_iff, packageImage, imageOf?_eq_ok_iff,
    packageRequirements_eq_ok_iff, requiredFiles, groups, mapM_eq_ok_iff, fileEntry_eq_ok_iff,
    group_eq_ok_iff_follows, conditionalFiles_eq_ok_iff]
  constructor
  · rintro ⟨hv, hn, hi, ⟨ho, hq⟩, hf, hg, hc⟩
    exact ⟨hv, hn, hi, ho, hq, hf, hg, hc⟩
  · rintro ⟨hv, hn, hi, ho, hq, hf, hg, hc⟩
    exact ⟨hv, hn, hi, ⟨ho, hq⟩, hf, hg, hc⟩

/-- **Reading loses, doubles and reorders nothing**: every list of a package
    corresponds, item by item, to the elements of its section, and so do the
    plugins of all groups together. -/
theorem package_corresponds {p : Package} (h : r.package d = .ok p) :
    p.Follows r d ∧
      List.Forall₂ (Plugin.Follows r) (d.select "/config/groups/*/plugins/*") p.plugins := by
  have hp : p.Follows r d := package_eq_ok_iff_follows.mp h
  exact ⟨hp, hp.plugins⟩

/-- A plugin that says no more than it has to. -/
def plainPlugin (name : String) : Element where
  name       := "plugin"
  attributes := [("name", name)]
  children   := [
    { name := "description" },
    { name := "typeDescriptor", children := [
      { name := "type", attributes := [("name", "Optional")] }] }]

/-- A document with one file twice, and with one plugin in two groups. -/
def repeating : Document where
  root := { name := "config", children := [
    { name := "moduleName", text := "M" },
    { name := "requiredInstallFiles", children := [
      { name := "file", attributes := [("source", "a.esp")] },
      { name := "file", attributes := [("source", "a.esp")] }] },
    { name := "groups", children := [
      { name := "group", attributes := [("name", "G"), ("type", "SelectAny")], children := [
        { name := "plugins", children := [plainPlugin "P", plainPlugin "Q"] }] },
      { name := "group", attributes := [("name", "H"), ("type", "SelectAll")], children := [
        { name := "plugins", children := [plainPlugin "P"] }] }] }] }

/-- The package in such a document. -/
def repeatingPackage : Package where
  version       := "2.0"
  name          := "M"
  requirements  := ⟨.all, []⟩
  requiredFiles := [.ofSource .file "a.esp", .ofSource .file "a.esp"]
  groups        := [
    ⟨"G", .any, [{ name := "P", description := "", typeRule := .fixed .optional },
      { name := "Q", description := "", typeRule := .fixed .optional }]⟩,
    ⟨"H", .all, [{ name := "P", description := "", typeRule := .fixed .optional }]⟩]

/-- What is written twice is read twice. -/
theorem package_corresponds_repeating :
    (Reader.mk .v2 {} .declining .pathOnly).package repeating = .ok repeatingPackage ∧
    repeatingPackage.Follows (.mk .v2 {} .declining .pathOnly) repeating ∧
    List.Forall₂ (Plugin.Follows (.mk .v2 {} .declining .pathOnly))
      (repeating.select "/config/groups/*/plugins/*") repeatingPackage.plugins := by
  have hread : (Reader.mk .v2 {} .declining .pathOnly).package repeating = .ok repeatingPackage :=
    rfl
  exact ⟨hread, package_corresponds hread⟩

end Reader

end ModInstall
