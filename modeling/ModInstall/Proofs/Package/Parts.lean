import ModInstall.Proofs.Markup.Height
import ModInstall.Proofs.Markup.Select
import ModInstall.Proofs.Package.Values

/-! # The parts of a package

    Every record of a package is read field by field, so a reader gives a
    record exactly when it gives each of its fields.  The lemmas say so one
    record at a time, and from them follows where the conditions of a package
    come from: each is what some element of the document was read to. -/

namespace ModInstall

open Markup (Element Document)

/-- The patterns of a rule; a fixed type has none. -/
def TypeRule.patterns : TypeRule → List TypePattern
  | .fixed _ => []
  | .computed _ patterns => patterns

/-- The type patterns of all plugins, in order. -/
def Package.typePatterns (p : Package) : List TypePattern :=
  p.plugins.flatMap (·.typeRule.patterns)

/-- The conditions of a package, those of type patterns first.  The
    requirements of the package are none of them: they hold no groups, and no
    grammar has a flag test there. -/
def Package.conditions (p : Package) : List Requirement :=
  p.typePatterns.map (·.condition) ++ p.conditionalFiles.map (·.condition)

/-! ## Tables -/

namespace Grammar

/-- The requirements of the package that each grammar knows. -/
theorem packageForm?_eq (g : Grammar) (kind : String) :
    g.packageForm? kind =
      if kind = "fileDependency" then some .file
      else if kind = "falloutDependency" ∧ g ≠ .v1 then some .gameVersion
      else if kind = "fommDependency" ∧ g ≠ .v1 then some .managerVersion
      else if kind = "gameDependency" ∧ g = .v3 then some .gameVersion
      else none := by
  cases g <;>
    simp only [packageForm?, lineage, List.findSome?, ownPackageForms, List.lookup_cons,
      List.lookup_nil] <;> grind

/-- The type rules that each grammar knows. -/
theorem typeForm?_eq (g : Grammar) (kind : String) :
    g.typeForm? kind =
      if kind = "type" then some .fixed
      else if kind = "dependencyType" ∧ g ≠ .v1 then some .computed
      else none := by
  cases g <;>
    simp only [typeForm?, lineage, List.findSome?, ownTypeForms, List.lookup_cons,
      List.lookup_nil] <;> grind

/-- The first grammar has no conditional files. -/
theorem conditionalFilesPath_eq (g : Grammar) :
    g.conditionalFilesPath =
      if g = .v1 then none else some "/config/conditionalFileInstalls/patterns/*" := by
  cases g <;> rfl

theorem readsFlags_eq (g : Grammar) : g.readsFlags = decide (g ≠ .v1) := by
  cases g <;> rfl

end Grammar

namespace Reader

variable {r : Reader} {d : Document} {e : Element}

/-! ## Sections -/

section

variable (hroot : d.root.answers "config" = true)
include hroot

/-- What stands below the root is found from the root on. -/
theorem select_config {path : String} (rest : String)
    (hpath : path.toList = '/' :: ("config".toList ++ '/' :: rest.toList)) :
    d.select path = d.root.select rest := by
  rw [Document.select_absolute hpath (by decide), if_pos hroot]

/-- Paths that begin with the name of the root go on below it. -/
theorem selectFirst?_config {path : String} (rest : String)
    (hpath : path.toList = '/' :: ("config".toList ++ '/' :: rest.toList)) :
    d.selectFirst? path = d.root.selectFirst? rest := by
  rw [Document.selectFirst?, select_config hroot rest hpath]
  rfl

end

/-! ## Field by field -/

theorem typePattern_eq_ok_iff {t : TypePattern} :
    r.typePattern e = .ok t ↔
      (∃ c, e.selectFirst? "type" = some c ∧ requireType c = .ok t.type) ∧
      (∃ c, e.selectFirst? "dependencies" = some c ∧ r.requirement c = .ok t.condition) := by
  simp only [typePattern, bind_eq_ok_iff, pure_eq_ok_iff, requireChild_eq_ok_iff]
  constructor
  · rintro ⟨c, hc, type, ht, c', hc', q, hq, rfl⟩
    exact ⟨⟨c, hc, ht⟩, c', hc', hq⟩
  · rintro ⟨⟨c, hc, ht⟩, c', hc', hq⟩
    exact ⟨c, hc, _, ht, c', hc', _, hq, rfl⟩

theorem conditionalPattern_eq_ok_iff {c : ConditionalFiles} :
    r.conditionalPattern e = .ok c ↔
      (∃ f, e.selectFirst? "dependencies" = some f ∧ r.requirement f = .ok c.condition) ∧
      (e.select "files/*").mapM fileEntry = .ok c.files := by
  simp only [conditionalPattern, bind_eq_ok_iff, pure_eq_ok_iff, requireChild_eq_ok_iff]
  constructor
  · rintro ⟨f, hf, q, hq, files, hfiles, rfl⟩
    exact ⟨⟨f, hf, hq⟩, hfiles⟩
  · rintro ⟨⟨f, hf, hq⟩, hfiles⟩
    exact ⟨f, hf, _, hq, _, hfiles, rfl⟩

/-- The flags of a plugin, none where the grammar has no flags. -/
def flagsOf (r : Reader) (e : Element) : Except ConfigError (List ConditionFlag) :=
  if r.grammar.readsFlags then (e.select "conditionFlags/*").mapM flag else .ok []

/-- A plugin is read in this order, whatever the grammar. -/
theorem plugin_eq (r : Reader) (e : Element) :
    r.plugin e = do
      let name ← requireAttribute e "name"
      let description ← requireChild e "description"
      let t ← typeElement e
      let typeRule ← r.typeRule t
      let image ← r.imageOf? (e.selectFirst? "image")
      let files ← (e.select "files/*").mapM fileEntry
      let flags ← r.flagsOf e
      return ⟨name, r.describe description.text, image, typeRule, files, flags⟩ := by
  rw [plugin, flagsOf]
  cases r.grammar.readsFlags <;> rfl

/-- A plugin is read when each of its parts is. -/
theorem plugin_eq_ok_iff {p : Plugin} :
    r.plugin e = .ok p ↔
      e.attribute? "name" = some p.name ∧
      (∃ c, e.selectFirst? "description" = some c ∧ p.description = r.describe c.text) ∧
      (∃ c, typeElement e = .ok c ∧ r.typeRule c = .ok p.typeRule) ∧
      r.imageOf? (e.selectFirst? "image") = .ok p.image ∧
      (e.select "files/*").mapM fileEntry = .ok p.files ∧
      r.flagsOf e = .ok p.flags := by
  simp only [plugin_eq, bind_eq_ok_iff, pure_eq_ok_iff, requireAttribute_eq_ok_iff,
    requireChild_eq_ok_iff]
  constructor
  · rintro ⟨name, hn, c, hc, t, ht, rule, hr, image, hi, files, hf, flags, hflags, rfl⟩
    exact ⟨hn, ⟨c, hc, rfl⟩, ⟨t, ht, hr⟩, hi, hf, hflags⟩
  · rintro ⟨hn, ⟨c, hc, hd⟩, ⟨t, ht, hr⟩, hi, hf, hflags⟩
    refine ⟨_, hn, c, hc, t, ht, _, hr, _, hi, _, hf, _, hflags, ?_⟩
    rw [← hd]

theorem group_eq_ok_iff {g : PluginGroup} :
    r.group e = .ok g ↔
      e.attribute? "name" = some g.name ∧
      requireValue .groupType GroupType.ofName? e "type" = .ok g.type ∧
      (e.select "plugins/*").mapM r.plugin = .ok g.plugins := by
  simp only [group, bind_eq_ok_iff, pure_eq_ok_iff, requireAttribute_eq_ok_iff]
  constructor
  · rintro ⟨name, hn, type, ht, plugins, hp, rfl⟩
    exact ⟨hn, ht, hp⟩
  · rintro ⟨hn, ht, hp⟩
    exact ⟨_, hn, _, ht, _, hp, rfl⟩

/-- **A package is read when each of its parts is.** -/
theorem package_eq_ok_iff {p : Package} :
    r.package d = .ok p ↔
      p.version = r.grammar.version ∧
      packageName d = .ok p.name ∧
      r.packageImage d = .ok p.image ∧
      r.packageRequirements d = .ok p.requirements ∧
      requiredFiles d = .ok p.requiredFiles ∧
      r.groups d = .ok p.groups ∧
      r.conditionalFiles d = .ok p.conditionalFiles := by
  simp only [package, bind_eq_ok_iff, pure_eq_ok_iff]
  constructor
  · rintro ⟨name, hn, image, hi, q, hq, files, hf, groups, hg, cs, hc, rfl⟩
    exact ⟨rfl, hn, hi, hq, hf, hg, hc⟩
  · rintro ⟨hv, hn, hi, hq, hf, hg, hc⟩
    refine ⟨_, hn, _, hi, _, hq, _, hf, _, hg, _, hc, ?_⟩
    rw [← hv]

/-- The requirements of the package are read one by one. -/
theorem packageRequirements_eq_ok_iff_each {q : Requirement} :
    r.packageRequirements d = .ok q ↔
      q.operator = .all ∧
      List.Forall₂ (fun e c => ∃ p, c = .atom p ∧ r.packageRequirement e = .ok p)
        (d.select "/config/moduleDependencies/*") q.members := by
  simp only [packageRequirements, bind_eq_ok_iff, pure_eq_ok_iff, mapM_eq_ok_iff, forall₂_map_iff]
  constructor
  · rintro ⟨ps, hps, rfl⟩
    exact ⟨rfl, ps, hps, rfl⟩
  · rintro ⟨ho, ps, hps, hm⟩
    exact ⟨ps, hps, by rw [hm, ← ho]⟩

/-- What is among the conditional files was read from a pattern. -/
theorem conditionalFiles_mem {cs : List ConditionalFiles} (h : r.conditionalFiles d = .ok cs)
    {c : ConditionalFiles} (hc : c ∈ cs) :
    ∃ path e, e ∈ d.select path ∧ r.conditionalPattern e = .ok c := by
  rw [conditionalFiles] at h
  cases hp : r.grammar.conditionalFilesPath with
  | none =>
      rw [hp] at h
      obtain rfl := Except.ok.inj h
      exact nomatch hc
  | some path =>
      rw [hp] at h
      obtain ⟨e, he, hec⟩ := exists_mem_of_mapM h hc
      exact ⟨path, e, he, hec⟩

/-- The patterns of a rule were read from below its element. -/
theorem typeRule_pattern_mem {rule : TypeRule} (h : r.typeRule e = .ok rule) {t : TypePattern}
    (ht : t ∈ rule.patterns) : ∃ c ∈ e.select "patterns/*", r.typePattern c = .ok t := by
  rw [typeRule] at h
  cases hf : r.grammar.typeForm? e.name with
  | none =>
      rw [hf] at h
      exact nomatch h
  | some form =>
      rw [hf] at h
      cases form with
      | fixed =>
          obtain ⟨type, -, rfl⟩ := map_eq_ok_iff.mp h
          exact nomatch ht
      | computed =>
          simp only [bind_eq_ok_iff, pure_eq_ok_iff] at h
          obtain ⟨c, -, default, -, patterns, hp, rfl⟩ := h
          exact exists_mem_of_mapM hp ht

/-- The type rule is the first child of the first descriptor. -/
theorem typeElement_eq_ok_iff {c : Element} :
    typeElement e = .ok c ↔
      ∃ descriptor, e.selectFirst? "typeDescriptor" = some descriptor ∧
        descriptor.children.head? = some c := by
  rw [typeElement]
  simp only [bind_eq_ok_iff, requireChild_eq_ok_iff]
  refine exists_congr fun descriptor => and_congr_right fun _ => ?_
  cases descriptor.children.head? <;> simp [pure_eq_ok_iff]

/-- The element of a type rule stands below that of the plugin. -/
theorem typeElement_nesting {c : Element} (h : typeElement e = .ok c) :
    c.nesting ≤ e.nesting := by
  obtain ⟨descriptor, hd, hc⟩ := typeElement_eq_ok_iff.mp h
  have hle := Element.nesting_le_of_selectFirst? hd
  have := Element.nesting_lt_of_mem (List.mem_of_head? hc)
  omega

/-! ## Where conditions come from -/

/-- A plugin was read from an element of the document. -/
theorem exists_element_of_plugin {p : Package} (h : r.package d = .ok p) {plugin : Plugin}
    (hp : plugin ∈ p.plugins) :
    ∃ e, e.nesting ≤ d.root.nesting ∧ r.plugin e = .ok plugin := by
  obtain ⟨-, -, -, -, -, hgroups, -⟩ := package_eq_ok_iff.mp h
  obtain ⟨group, hg, hp⟩ := List.mem_flatMap.mp hp
  obtain ⟨ge, hge, hgroup⟩ := exists_mem_of_mapM hgroups hg
  obtain ⟨-, -, hplugins⟩ := group_eq_ok_iff.mp hgroup
  obtain ⟨pe, hpe, hplugin⟩ := exists_mem_of_mapM hplugins hp
  exact ⟨pe, Nat.le_trans (Element.nesting_le_of_mem_select hpe)
    (Document.nesting_le_of_mem_select hge), hplugin⟩

/-- The condition of a type pattern was read from an element of the document. -/
theorem exists_element_of_typePattern {p : Package} (h : r.package d = .ok p)
    {t : TypePattern} (ht : t ∈ p.typePatterns) :
    ∃ e, e.nesting ≤ d.root.nesting ∧ r.requirement e = .ok t.condition := by
  obtain ⟨plugin, hp, ht⟩ := List.mem_flatMap.mp ht
  obtain ⟨pe, hpe, hplugin⟩ := exists_element_of_plugin h hp
  obtain ⟨-, -, ⟨te, hte, hrule⟩, -⟩ := plugin_eq_ok_iff.mp hplugin
  obtain ⟨ce, hce, hpattern⟩ := typeRule_pattern_mem hrule ht
  obtain ⟨-, e, he, hq⟩ := typePattern_eq_ok_iff.mp hpattern
  refine ⟨e, ?_, hq⟩
  -- pattern, type rule and plugin stand above the condition, in this order
  calc e.nesting
    _ ≤ ce.nesting := Element.nesting_le_of_selectFirst? he
    _ ≤ te.nesting := Element.nesting_le_of_mem_select hce
    _ ≤ pe.nesting := typeElement_nesting hte
    _ ≤ d.root.nesting := hpe

/-- The condition of conditional files was read from an element of the
    document. -/
theorem exists_element_of_conditionalFiles {p : Package} (h : r.package d = .ok p)
    {c : ConditionalFiles} (hc : c ∈ p.conditionalFiles) :
    ∃ e, e.nesting ≤ d.root.nesting ∧ r.requirement e = .ok c.condition := by
  obtain ⟨-, -, -, -, -, -, hfiles⟩ := package_eq_ok_iff.mp h
  obtain ⟨path, ce, hce, hpattern⟩ := conditionalFiles_mem hfiles hc
  obtain ⟨⟨e, he, hq⟩, -⟩ := conditionalPattern_eq_ok_iff.mp hpattern
  exact ⟨e, Nat.le_trans (Element.nesting_le_of_selectFirst? he)
    (Document.nesting_le_of_mem_select hce), hq⟩

end Reader

end ModInstall
