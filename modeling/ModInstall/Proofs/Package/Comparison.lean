import ModInstall.Proofs.Package.ConditionGrammar
import ModInstall.Proofs.Package.Parts

/-! # Readers compared

    Two readers may differ in their grammars, limits, options or hosts.  How
    far they agree on a document is decided where these are looked up:
    `AgreesBut` says so of the single lookups, and the lemmas carry it through
    every reader of a record up to that of packages.  What is compared is the
    whole result, the error included: the second reader gives what the first
    one gives, unless the first one stops at a fault that is foreseen.

    Descriptions are the one text that options rewrite, so packages are
    compared up to a function on them. -/

namespace ModInstall

open Markup (Element Document)

/-! ## Descriptions -/

/-- A plugin with its description rewritten. -/
def Plugin.mapDescription (f : String → String) (p : Plugin) : Plugin :=
  { p with description := f p.description }

/-- A group with the descriptions of its plugins rewritten. -/
def PluginGroup.mapDescriptions (f : String → String) (g : PluginGroup) : PluginGroup :=
  { g with plugins := g.plugins.map (·.mapDescription f) }

/-- A package with the descriptions of its plugins rewritten. -/
def Package.mapDescriptions (f : String → String) (p : Package) : Package :=
  { p with groups := p.groups.map (·.mapDescriptions f) }

@[simp] theorem PluginGroup.mapDescriptions_id (g : PluginGroup) : g.mapDescriptions id = g := by
  have hplugins : g.plugins.map (·.mapDescription id) = g.plugins := List.map_id g.plugins
  rw [mapDescriptions, hplugins]

@[simp] theorem Package.mapDescriptions_id (p : Package) : p.mapDescriptions id = p := by
  have hgroups : p.groups.map (·.mapDescriptions id) = p.groups := by simp
  rw [mapDescriptions, hgroups]

namespace Reader

variable {fault : ConfigError → Prop} {f : String → String} {r r' : Reader} {d : Document}
  {e : Element} {level : Nat}

/-- Two readers agree on forms, limits, images and descriptions, but for faults
    at which the first one stops and for a function on descriptions.  What they
    make of the requirements of the whole package is left open, since there a
    host may be asked. -/
structure AgreesBut (fault : ConfigError → Prop) (f : String → String) (r r' : Reader) : Prop where
  conditionForm : ∀ kind, r.grammar.conditionForm? kind = r'.grammar.conditionForm? kind ∨
    r.grammar.conditionForm? kind = none ∧ fault (.unknownNode kind)
  depth : r.options.maxConditionDepth = r'.options.maxConditionDepth ∨
    r.options.maxConditionDepth < r'.options.maxConditionDepth ∧
      fault (.conditionTooDeep r.options.maxConditionDepth)
  typeForm : r.grammar.typeForm? = r'.grammar.typeForm?
  readsFlags : r.grammar.readsFlags = r'.grammar.readsFlags
  conditionalFilesPath : r.grammar.conditionalFilesPath = r'.grammar.conditionalFilesPath
  images : r.images = r'.images
  describe : ∀ text, r'.describe text = f (r.describe text)

/-- Readers of one grammar and with the same images look up the same forms. -/
theorem AgreesBut.of_grammar (hg : r.grammar = r'.grammar) (images : r.images = r'.images)
    (depth : r.options.maxConditionDepth = r'.options.maxConditionDepth ∨
      r.options.maxConditionDepth < r'.options.maxConditionDepth ∧
        fault (.conditionTooDeep r.options.maxConditionDepth))
    (describe : ∀ text, r'.describe text = f (r.describe text)) : AgreesBut fault f r r' where
  conditionForm _ := Or.inl (by rw [hg])
  depth
  typeForm := by rw [hg]
  readsFlags := by rw [hg]
  conditionalFilesPath := by rw [hg]
  images
  describe

namespace AgreesBut

variable (h : AgreesBut fault f r r')
include h

/-! ## Conditions -/

/-- A member is read alike, if groups are. -/
theorem memberAt (hgroup : SameUnless fault (r.requirementAt level e) (r'.requirementAt level e)) :
    SameUnless fault (r.memberAt level e) (r'.memberAt level e) := by
  rw [Reader.memberAt, Reader.memberAt]
  rcases h.conditionForm e.name with hsame | ⟨hnone, hfault⟩
  · rw [hsame]
    cases r'.grammar.conditionForm? e.name with
    | none => exact .refl _
    | some form =>
        cases form with
        | group => exact hgroup.map _
        | file | flag | gameVersion | managerVersion => exact .refl _
  · rw [hnone]
    exact .error hfault _

/-- A level is refused by both readers or by neither, but for levels that only
    the second one has room for. -/
theorem requirementAt (level : Nat) (e : Element) :
    SameUnless fault (r.requirementAt level e) (r'.requirementAt level e) := by
  induction e generalizing level with
  | node e ih =>
      have hread : SameUnless fault
          (do
            let operator ← requireValue .operator Operator.ofName? e "operator"
            let members ← e.children.mapM (r.memberAt (level + 1))
            return (⟨operator, members⟩ : Requirement))
          (do
            let operator ← requireValue .operator Operator.ofName? e "operator"
            let members ← e.children.mapM (r'.memberAt (level + 1))
            return ⟨operator, members⟩) :=
        SameUnless.bind (.refl _) fun _ =>
          SameUnless.bind (.mapM fun c hc => h.memberAt (ih c hc _)) fun _ => .refl _
      -- either the limits are the same, or the first is lower and what it refuses is foreseen
      rw [requirementAt_eq, requirementAt_eq]
      rcases h.depth with hdepth | ⟨hdepth, hfault⟩
      · rw [hdepth]
        split_ifs
        · exact .refl _
        · exact hread
      · by_cases hl : r.options.maxConditionDepth < level
        · rw [if_pos hl]
          exact .error hfault _
        · have hl' : ¬ r'.options.maxConditionDepth < level := by omega
          rw [if_neg hl, if_neg hl']
          exact hread

/-! ## Sections -/

theorem typeRule (e : Element) : SameUnless fault (r.typeRule e) (r'.typeRule e) := by
  rw [Reader.typeRule, Reader.typeRule, h.typeForm]
  cases r'.grammar.typeForm? e.name with
  | none => exact .refl _
  | some form =>
      cases form with
      | fixed => exact .refl _
      | computed =>
          -- only the conditions of the patterns can differ
          refine SameUnless.bind (.refl _) fun _ => SameUnless.bind (.refl _) fun _ => ?_
          refine SameUnless.bind (.mapM fun c _ => ?_) fun _ => .refl _
          refine SameUnless.bind (.refl _) fun _ => SameUnless.bind (.refl _) fun _ => ?_
          exact SameUnless.bind (.refl _) fun c => (h.requirementAt 1 c).bind fun _ => .refl _

theorem imageOf? (e? : Option Element) : r.imageOf? e? = r'.imageOf? e? := by
  cases e? with
  | none => rfl
  | some e => rw [Reader.imageOf?, Reader.imageOf?, image, image, h.images]

/-- Plugins are read alike, but for their descriptions. -/
theorem plugin (e : Element) :
    SameUnless fault ((r.plugin e).map (·.mapDescription f)) (r'.plugin e) := by
  rw [plugin_eq, plugin_eq, flagsOf, flagsOf, h.readsFlags, h.imageOf?]
  refine SameUnless.bind_map (.refl _) fun _ => SameUnless.bind_map (.refl _) fun c => ?_
  refine SameUnless.bind_map (.refl _) fun t => SameUnless.bind_map (h.typeRule t) fun _ => ?_
  refine SameUnless.bind_map (.refl _) fun _ => SameUnless.bind_map (.refl _) fun _ => ?_
  refine SameUnless.bind_map (.refl _) fun _ => ?_
  rw [h.describe]
  exact .refl _

theorem groups (d : Document) :
    SameUnless fault ((r.groups d).map (List.map (·.mapDescriptions f))) (r'.groups d) := by
  refine SameUnless.mapM_map fun e _ => ?_
  refine SameUnless.bind_map (.refl _) fun _ => SameUnless.bind_map (.refl _) fun _ => ?_
  exact SameUnless.map_bind (.mapM_map fun p _ => h.plugin p) fun _ => .refl _

theorem conditionalFiles (d : Document) :
    SameUnless fault (r.conditionalFiles d) (r'.conditionalFiles d) := by
  rw [Reader.conditionalFiles, Reader.conditionalFiles, h.conditionalFilesPath]
  cases r'.grammar.conditionalFilesPath with
  | none => exact .refl _
  | some path =>
      refine SameUnless.mapM fun e _ => SameUnless.bind (.refl _) fun c => ?_
      exact (h.requirementAt 1 c).bind fun _ => .refl _

/-! ## Packages -/

section

variable (hrequirement :
  ∀ e, SameUnless fault (r.packageRequirement e) (r'.packageRequirement e))
include hrequirement

/-- **Readers that agree on what they look up agree on packages**, as far as
    they do on the requirements of the whole package.  The second one gives the
    package of the first with its descriptions rewritten and its own version,
    and fails as the first one fails, unless the first one stops at a fault
    that is foreseen. -/
theorem package (d : Document) :
    SameUnless fault ((r.package d).map fun p =>
      { p.mapDescriptions f with version := r'.grammar.version }) (r'.package d) := by
  have hrequirements : SameUnless fault (r.packageRequirements d) (r'.packageRequirements d) :=
    SameUnless.bind (.mapM fun e _ => hrequirement e) fun _ => .refl _
  rw [Reader.package, Reader.package, packageImage, packageImage, h.imageOf?]
  refine SameUnless.bind_map (.refl _) fun _ => SameUnless.bind_map (.refl _) fun _ => ?_
  refine SameUnless.bind_map hrequirements fun _ => ?_
  refine SameUnless.bind_map (.refl _) fun _ => SameUnless.map_bind (h.groups d) fun _ => ?_
  exact SameUnless.bind_map (h.conditionalFiles d) fun _ => .refl _

/-- Readers of the same grammar give the same version. -/
theorem package_of_grammar (hg : r'.grammar = r.grammar) (d : Document) :
    SameUnless fault ((r.package d).map (·.mapDescriptions f)) (r'.package d) := by
  have hpackage := h.package hrequirement d
  cases hp : r.package d with
  | error e =>
      rw [hp] at hpackage
      exact hpackage
  | ok p =>
      have hversion : p.version = r'.grammar.version := hg ▸ (package_eq_ok_iff.mp hp).1
      rw [hp, ← hversion] at hpackage
      exact hpackage

end

end AgreesBut

/-- Where descriptions are left alone, so are packages. -/
theorem AgreesBut.package_eq (h : AgreesBut fault id r r')
    (hrequirement : ∀ e, SameUnless fault (r.packageRequirement e) (r'.packageRequirement e))
    (hg : r'.grammar = r.grammar) (d : Document) :
    SameUnless fault (r.package d) (r'.package d) := by
  have hpackage := h.package_of_grammar hrequirement hg d
  have hid : (·.mapDescriptions id : Package → Package) = id := funext Package.mapDescriptions_id
  rwa [hid, Except.map_id] at hpackage

end Reader

end ModInstall
