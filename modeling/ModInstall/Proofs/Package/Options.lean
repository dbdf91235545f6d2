import ModInstall.Proofs.Package.Comparison
import ModInstall.Proofs.Package.Correspondence

/-! # What options change

    A reader has three options, and each changes what it names.  With or
    without trimming the same documents are read, to packages that differ in
    descriptions.  A limit on conditions refuses what nests deeper and settles
    nothing else, so raising it keeps every package and every other fault; and
    what a higher limit lets through, a lower one lets through exactly if the
    conditions of the package are no deeper.  The fallback version is for
    documents that declare none. -/

namespace ModInstall

open Markup (Element Document)

namespace Reader

variable {r : Reader} {d : Document} {e : Element} {l l' : Nat}

/-- The reader, told whether to trim descriptions. -/
def trimming (r : Reader) (trim : Bool) : Reader :=
  { r with options := { r.options with trimDescriptions := trim } }

/-- The reader with another limit on conditions. -/
def limited (r : Reader) (limit : Nat) : Reader :=
  { r with options := { r.options with maxConditionDepth := limit } }

/-- The reader with another fallback version. -/
def fallingBack (r : Reader) (version : Option String) : Reader :=
  { r with options := { r.options with fallbackVersion := version } }

/-! ## Two readers of one document -/

/-- Trimming changes descriptions alone. -/
theorem trimming_agrees (r : Reader) :
    AgreesBut (fun _ => False) Text.trimmed (r.trimming false) (r.trimming true) :=
  .of_grammar rfl rfl (Or.inl rfl) fun _ => rfl

/-- A lower limit stops at conditions that are too deep for it. -/
theorem limited_agrees (r : Reader) (hl : l ≤ l') :
    AgreesBut (· = .conditionTooDeep l) id (r.limited l) (r.limited l') :=
  .of_grammar rfl rfl ((Nat.eq_or_lt_of_le hl).imp id fun h => ⟨h, rfl⟩) fun _ => rfl

/-- A fallback changes nothing in a reader that has its grammar. -/
theorem fallingBack_agrees (r : Reader) (version : Option String) :
    AgreesBut (fun _ => False) id r (r.fallingBack version) :=
  .of_grammar rfl rfl (Or.inl rfl) fun _ => rfl

end Reader

/-! ## Conditions within a limit

    What a reader with one limit takes from an element, a reader with another
    limit takes too, if the conditions in it are no deeper than that. -/

section

variable {r : Reader} {d : Document} {e : Element} {l l' : Nat}

/-- A condition that is read under one limit is read under another one that has
    room for it. -/
theorem Requirement.Follows.limited {q : Requirement} (h : q.Follows (r.limited l') e)
    (hq : q.depth ≤ l) : q.Follows (r.limited l) e := by
  obtain ⟨c, hc, hm, -⟩ := h
  exact ⟨c, hc, hm, hm.depth_eq ▸ hq⟩

theorem TypePattern.Follows.limited {t : TypePattern} (h : t.Follows (r.limited l') e)
    (ht : t.condition.depth ≤ l) : t.Follows (r.limited l) e :=
  ⟨h.type, h.condition.limited ht⟩

/-- A type rule is read if there is room for all its patterns. -/
theorem TypeRule.Follows.limited {rule : TypeRule} (h : rule.Follows (r.limited l') e)
    (hrule : ∀ t ∈ rule.patterns, t.condition.depth ≤ l) : rule.Follows (r.limited l) e := by
  cases h with
  | fixed hn ht => exact .fixed hn ht
  | computed hg hn hc hd hp =>
      exact .computed hg hn hc hd (forall₂_imp_mem hp fun _ _ t ht h => h.limited (hrule t ht))

theorem Plugin.Follows.limited {p : Plugin} (h : p.Follows (r.limited l') e)
    (hp : ∀ t ∈ p.typeRule.patterns, t.condition.depth ≤ l) : p.Follows (r.limited l) e := by
  obtain ⟨c, descriptor, hd, hc, hrule⟩ := h.typeRule
  exact ⟨h.name, h.description, ⟨c, descriptor, hd, hc, hrule.limited hp⟩, h.image, h.files,
    h.flags⟩

theorem PluginGroup.Follows.limited {g : PluginGroup} (h : g.Follows (r.limited l') e)
    (hg : ∀ p ∈ g.plugins, ∀ t ∈ p.typeRule.patterns, t.condition.depth ≤ l) :
    g.Follows (r.limited l) e :=
  ⟨h.name, h.type, forall₂_imp_mem h.plugins fun _ _ p hp h => h.limited (hg p hp)⟩

theorem ConditionalFiles.Follows.limited {c : ConditionalFiles} (h : c.Follows (r.limited l') e)
    (hc : c.condition.depth ≤ l) : c.Follows (r.limited l) e :=
  ⟨h.condition.limited hc, h.files⟩

/-- **A package is read under every limit that has room for its
    conditions.** -/
theorem Package.Follows.limited {p : Package} (h : p.Follows (r.limited l') d)
    (hp : ∀ q ∈ p.conditions, q.depth ≤ l) : p.Follows (r.limited l) d := by
  have hgroups : ∀ g ∈ p.groups, ∀ plugin ∈ g.plugins, ∀ t ∈ plugin.typeRule.patterns,
      t.condition.depth ≤ l := by
    intro g hg plugin hplugin t ht
    have hmem : t ∈ p.typePatterns :=
      List.mem_flatMap.mpr ⟨plugin, List.mem_flatMap.mpr ⟨g, hg, hplugin⟩, ht⟩
    exact hp _ (List.mem_append_left _ (List.mem_map_of_mem hmem))
  have hfiles : ∀ c ∈ p.conditionalFiles, c.condition.depth ≤ l := fun c hc =>
    hp _ (List.mem_append_right _ (List.mem_map_of_mem hc))
  -- requirements of the package are no groups, so no limit is asked for
  have hrequirements : (r.limited l).packageRequirements d = .ok p.requirements :=
    (Reader.packageRequirements_eq_ok_iff (r := r.limited l')).mpr ⟨h.operator, h.requirements⟩
  obtain ⟨-, hmembers⟩ := Reader.packageRequirements_eq_ok_iff.mp hrequirements
  exact ⟨h.version, h.name, h.image, h.operator, hmembers, h.requiredFiles,
    forall₂_imp_mem h.groups fun _ _ g hg h => h.limited (hgroups g hg),
    forall₂_imp_mem h.conditionalFiles fun _ _ c hc h => h.limited (hfiles c hc)⟩

end

namespace Reader

variable {r : Reader} {d : Document} {l l' : Nat}

/-- A reader gives no condition that is deeper than its limit. -/
theorem depth_le_of_mem_conditions {p : Package} (h : r.package d = .ok p) {q : Requirement}
    (hq : q ∈ p.conditions) : q.depth ≤ r.options.maxConditionDepth := by
  have hfrom : ∃ e, r.requirement e = .ok q := by
    rcases List.mem_append.mp hq with hq | hq
    · obtain ⟨t, ht, rfl⟩ := List.mem_map.mp hq
      obtain ⟨e, -, he⟩ := exists_element_of_typePattern h ht
      exact ⟨e, he⟩
    · obtain ⟨c, hc, rfl⟩ := List.mem_map.mp hq
      obtain ⟨e, -, he⟩ := exists_element_of_conditionalFiles h hc
      exact ⟨e, he⟩
  obtain ⟨e, he⟩ := hfrom
  obtain ⟨hm, hl⟩ := requirement_eq_ok_iff.mp he
  exact hm.depth_eq ▸ hl

/-- What a higher limit lets through, a lower one lets through exactly if no
    condition is too deep for it. -/
theorem package_limited (hl : l ≤ l') {p : Package} (h : (r.limited l').package d = .ok p) :
    (r.limited l).package d =
      if ∀ q ∈ p.conditions, q.depth ≤ l then .ok p else .error (.conditionTooDeep l) := by
  split_ifs with hdepth
  · have hp : p.Follows (r.limited l') d := package_eq_ok_iff_follows.mp h
    exact package_eq_ok_iff_follows.mpr (hp.limited hdepth)
  · rcases (limited_agrees r hl).package_eq (fun _ => .refl _) rfl d with hsame | ⟨_, hstop, rfl⟩
    · have hlow : (r.limited l).package d = .ok p := hsame.trans h
      exact absurd (fun q hq => depth_le_of_mem_conditions hlow hq) hdepth
    · exact hstop

/-! ## The fallback version -/

/-- A document that declares its version gets the reader for that version,
    whatever the fallback. -/
theorem forDocument_fallingBack {version : String} (h : Grammar.declaredVersion? d = some version)
    (options : Options) (fallback : Option String) :
    forDocument d { options with fallbackVersion := fallback }
      = (forDocument d options).map (·.fallingBack fallback) := by
  rw [forDocument, forDocument, h, Option.some_or, Option.some_or]
  dsimp only
  cases Grammar.forVersion? version with
  | none => rfl
  | some grammar => rfl

/-! ## All options -/

/-- **Options change only what they name.**  Trimming changes the descriptions
    of plugins and no outcome else.  A higher limit on conditions keeps every
    package and every fault but conditions that are too deep; a lower limit
    keeps every package whose conditions are no deeper, and finds the others
    too deep.  The fallback version changes no reading, and no choice of a
    grammar where the document declares a version. -/
theorem package_options (r : Reader) (d : Document) :
    (r.trimming true).package d
      = ((r.trimming false).package d).map (·.mapDescriptions Text.trimmed) ∧
    (∀ l l', l ≤ l' →
      (∀ p, (r.limited l).package d = .ok p → (r.limited l').package d = .ok p) ∧
      (∀ fault, (r.limited l).package d = .error fault →
        (∀ limit, fault ≠ .conditionTooDeep limit) → (r.limited l').package d = .error fault) ∧
      (∀ p, (r.limited l').package d = .ok p → (r.limited l).package d =
        if ∀ q ∈ p.conditions, q.depth ≤ l then .ok p else .error (.conditionTooDeep l))) ∧
    (∀ fallback, (r.fallingBack fallback).package d = r.package d) ∧
    (∀ version, Grammar.declaredVersion? d = some version → ∀ options fallback,
      forDocument d { options with fallbackVersion := fallback }
        = (forDocument d options).map (·.fallingBack fallback)) := by
  refine ⟨?_, fun l l' hl => ⟨fun p hp => ?_, fun fault hf hdeep => ?_, fun p hp => ?_⟩,
    fun fallback => ?_, fun version hv => forDocument_fallingBack hv⟩
  · have hsame := (trimming_agrees r).package_of_grammar (fun _ => .refl _) rfl d
    exact hsame.eq.symm
  · have hsame := (limited_agrees r hl).package_eq (fun _ => .refl _) rfl d
    rw [hp] at hsame
    exact hsame.eq_ok
  · have hsame := (limited_agrees r hl).package_eq (fun _ => .refl _) rfl d
    rw [hf] at hsame
    exact hsame.eq_error (hdeep l)
  · exact package_limited hl hp
  · have hsame := (fallingBack_agrees r fallback).package_eq (fun _ => .refl _) rfl d
    exact hsame.eq.symm

/-- A document of version 2, with blanks around a description and a condition
    of two levels. -/
def twoLevels : Document where
  root := {
    name := "config"
    attributes := [("noNamespaceSchemaLocation", "schema/ModConfig2.0.xsd")]
    children := [
      { name := "moduleName", text := "M" },
      { name := "groups", children := [
        { name := "group", attributes := [("name", "G"), ("type", "SelectAny")], children := [
          { name := "plugins", children := [
            { name := "plugin", attributes := [("name", "P")], children := [
              { name := "description", text := " D " },
              { name := "typeDescriptor", children := [
                { name := "dependencyType", children := [
                  { name := "defaultType", attributes := [("name", "Optional")] },
                  { name := "patterns", children := [
                    { name := "pattern", children := [
                      { name := "type", attributes := [("name", "Required")] },
                      { name := "dependencies", attributes := [("operator", "And")], children := [
                        { name := "dependencies",
                          attributes := [("operator", "Or")] }] }] }] }] }] }] }] }] }] }] }

/-- The package in such a document, with its description as given. -/
def twoLevelsPackage (description : String) : Package where
  version      := "2.0"
  name         := "M"
  requirements := ⟨.all, []⟩
  groups       := [⟨"G", .any, [{
    name     := "P"
    description
    typeRule := .computed .optional [⟨.required, ⟨.all, [.group .some []]⟩⟩] }]⟩]

/-- Without trimming the blanks are kept and with it they are cut off; a limit
    of one level refuses the document as too deep; and the version that the
    document declares is taken, not the fallback. -/
theorem package_options_twoLevels :
    (Reader.mk .v2 {} .declining .pathOnly).package twoLevels = .ok (twoLevelsPackage "D") ∧
    ((Reader.mk .v2 {} .declining .pathOnly).limited 1).package twoLevels
      = .error (.conditionTooDeep 1) ∧
    ((Reader.mk .v2 {} .declining .pathOnly).limited 2).package twoLevels
      = .ok (twoLevelsPackage "D") ∧
    ((Reader.mk .v2 {} .declining .pathOnly).limited 99).package twoLevels
      = .ok (twoLevelsPackage "D") ∧
    forDocument twoLevels { fallbackVersion := some "3.0" }
      = .ok (.mk .v2 { fallbackVersion := some "3.0" } .declining .pathOnly) := by
  have huntrimmed : ((Reader.mk .v2 {} .declining .pathOnly).trimming false).package twoLevels
      = .ok (twoLevelsPackage " D ") :=
    rfl
  obtain ⟨htrim, hlimit, -, hversion⟩ :=
    package_options (.mk .v2 {} .declining .pathOnly) twoLevels
  rw [huntrimmed] at htrim
  obtain ⟨-, -, hlow⟩ := hlimit 1 64 (by decide)
  obtain ⟨-, -, htwo⟩ := hlimit 2 64 (by decide)
  obtain ⟨hhigh, -, -⟩ := hlimit 64 99 (by decide)
  refine ⟨htrim, ?_, ?_, hhigh _ htrim, ?_⟩
  · exact (hlow _ htrim).trans (if_neg (by decide))
  · exact (htwo _ htrim).trans (if_pos (by decide))
  · exact (hversion "2.0" (by decide) {} (some "3.0")).trans rfl

end Reader

end ModInstall
