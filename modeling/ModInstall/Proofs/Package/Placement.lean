import ModInstall.Proofs.Package.Correspondence

/-! # Nodes that the grammar cannot place

    A document may hold a node for which the grammar has no place.  Such a node
    should make the reader fail, for a package that was read without it says
    less than its document.  `Stands` says where nodes stand that have to be
    placed, and `Places` which nodes the grammar has a place for.

    Four kinds of lists are gone through to the end: the requirements of the
    package, its required files, the files of plugins and of conditional files,
    and the groups of conditions.  But where the format has an element once, a
    reader goes by the first and does not look for more: a plugin has one
    `typeDescriptor` with one child, and a pattern has one group of conditions.
    So `Stands` is told which of several elements are looked at.  What stands
    where the reader looks has been placed; all nodes have been placed if the
    document has no more than one where one is expected (`Unrivalled`); and in
    general a second one goes unnoticed, whatever it is. -/

namespace ModInstall

open Markup (Element Document)

/-- The places for which a grammar has tables. -/
inductive Place
  /-- Among the requirements of the package. -/
  | requirement
  /-- In a list of files. -/
  | file
  /-- In the type descriptor of a plugin. -/
  | typeRule
  /-- In a group of conditions. -/
  | member
deriving DecidableEq

/-- A reader has a use for a node at a place: its grammar knows the node there,
    or the host takes it. -/
def Reader.Places (r : Reader) (e : Element) : Place → Prop
  | .requirement => (r.grammar.packageForm? e.name).isSome ∨ (r.extension e).isSome
  | .file => e.name ∈ ["file", "folder"]
  | .typeRule => (r.grammar.typeForm? e.name).isSome
  | .member => (r.grammar.conditionForm? e.name).isSome

instance (r : Reader) (e : Element) : (place : Place) → Decidable (r.Places e place)
  | .requirement =>
      inferInstanceAs (Decidable ((r.grammar.packageForm? e.name).isSome ∨ (r.extension e).isSome))
  | .file => inferInstanceAs (Decidable (e.name ∈ ["file", "folder"]))
  | .typeRule => inferInstanceAs (Decidable (r.grammar.typeForm? e.name).isSome)
  | .member => inferInstanceAs (Decidable (r.grammar.conditionForm? e.name).isSome)

/-! ## Where nodes stand -/

section

variable (r : Reader) (look : List Element → List Element) (d : Document)

/-- An element is in the type descriptor of a plugin. -/
inductive InDescriptor : Element → Prop
  | rule {plugin descriptor e : Element} :
      plugin ∈ d.select "/config/groups/*/plugins/*" →
      descriptor ∈ look (plugin.select "typeDescriptor") → e ∈ look descriptor.children →
      InDescriptor e

/-- An element is a pattern with conditions: one of conditional files, or one of
    the types that a plugin can have. -/
inductive IsPattern : Element → Prop
  | conditional {path : String} {e : Element} :
      r.grammar.conditionalFilesPath = some path → e ∈ d.select path → IsPattern e
  | type {rule e : Element} :
      InDescriptor look d rule → r.grammar.typeForm? rule.name = some .computed →
      e ∈ rule.select "patterns/*" → IsPattern e

/-- An element is a group of conditions in a pattern, at any nesting. -/
inductive IsGroup : Element → Prop
  | outer {pattern e : Element} :
      IsPattern r look d pattern → e ∈ look (pattern.select "dependencies") → IsGroup e
  | inner {group e : Element} :
      IsGroup group → e ∈ group.children → e.name = "dependencies" → IsGroup e

/-- A node stands at a place. -/
inductive Stands : Place → Element → Prop
  | requirement {e : Element} :
      e ∈ d.select "/config/moduleDependencies/*" → Stands .requirement e
  | required {e : Element} :
      e ∈ d.select "/config/requiredInstallFiles/*" → Stands .file e
  | plugin {plugin e : Element} :
      plugin ∈ d.select "/config/groups/*/plugins/*" → e ∈ plugin.select "files/*" →
      Stands .file e
  | conditional {path : String} {pattern e : Element} :
      r.grammar.conditionalFilesPath = some path → pattern ∈ d.select path →
      e ∈ pattern.select "files/*" → Stands .file e
  | typeRule {e : Element} : InDescriptor look d e → Stands .typeRule e
  | member {group e : Element} :
      IsGroup r look d group → e ∈ group.children → Stands .member e

end

/-- Where the format has one element the document has no other. -/
structure Unrivalled (r : Reader) (d : Document) : Prop where
  descriptor : ∀ plugin ∈ d.select "/config/groups/*/plugins/*",
    (plugin.select "typeDescriptor").length ≤ 1 ∧
      ∀ descriptor ∈ plugin.select "typeDescriptor", descriptor.children.length ≤ 1
  condition : ∀ pattern, IsPattern r id d pattern → (pattern.select "dependencies").length ≤ 1

variable {r : Reader} {d : Document} {e : Element}

/-! ## Tables -/

namespace Grammar

/-- A type rule that could be read is of a kind that the grammar knows. -/
theorem typeForm?_of_follows {rule : TypeRule} (h : rule.Follows r e) :
    (r.grammar.typeForm? e.name).isSome := by
  rw [typeForm?_eq]
  cases h with
  | fixed hn => simp [hn]
  | computed hg hn => simp [hg, hn]

/-- Members of groups that follow the grammar are of kinds that it knows. -/
theorem conditionForm?_of_wellFormed {g : Grammar} (h : WellFormedMember g e) :
    (g.conditionForm? e.name).isSome := by
  rw [conditionForm?_eq]
  cases h with
  | group hn => simp [hn]
  | atom hp =>
      cases hp with
      | file hn => simp [hn]
      | flag hg hn | gameVersion hg hn | managerVersion hg hn => simp [hg, hn]

end Grammar

/-- An entry that could be read is a file or a folder. -/
theorem FileEntry.Follows.places {f : FileEntry} (h : f.Follows e) : r.Places e .file := by
  have hkind := h.kind
  simp only [List.mem_cons, Prod.mk.injEq, List.not_mem_nil, or_false] at hkind
  rcases hkind with ⟨hn, -⟩ | ⟨hn, -⟩ <;> simp [Reader.Places, hn]

/-! ## What the reader looks at -/

/-- The first of some elements is all that is looked at. -/
theorem mem_take_one_iff {l : List Element} : e ∈ l.take 1 ↔ l.head? = some e := by
  cases l <;> simp [eq_comm]

section

variable {p : Package} (h : p.Follows r d)
include h

/-- The first child of the first descriptor has been read to the rule of its
    plugin. -/
theorem InDescriptor.exists_rule (he : InDescriptor (List.take 1) d e) :
    ∃ rule : TypeRule, rule.Follows r e := by
  obtain ⟨hplugin, hdescriptor, he⟩ := he
  obtain ⟨plugin, -, hp⟩ := exists_mem_right_of_forall₂ h.plugins hplugin
  obtain ⟨c, descriptor, hd, hc, hrule⟩ := hp.typeRule
  obtain rfl := Option.some.inj ((mem_take_one_iff.mp hdescriptor).symm.trans hd)
  obtain rfl := Option.some.inj ((mem_take_one_iff.mp he).symm.trans hc)
  exact ⟨_, hrule⟩

/-- What stands among the conditional files was read as a pattern. -/
theorem exists_conditionalFiles {path : String} (hpath : r.grammar.conditionalFilesPath = some path)
    (he : e ∈ d.select path) : ∃ c : ConditionalFiles, c.Follows r e := by
  have hfiles : r.conditionalFiles d = .ok p.conditionalFiles :=
    Reader.conditionalFiles_eq_ok_iff.mpr h.conditionalFiles
  rw [Reader.conditionalFiles, hpath] at hfiles
  obtain ⟨c, -, hc⟩ := exists_mem_right_of_forall₂ (mapM_eq_ok_iff.mp hfiles) he
  exact ⟨c, Reader.conditionalPattern_eq_ok_iff_follows.mp hc⟩

/-- The first condition of a pattern was read. -/
theorem IsPattern.exists_condition (he : IsPattern r (List.take 1) d e) :
    ∃ q : Requirement, q.Follows r e := by
  cases he with
  | conditional hpath he =>
      obtain ⟨c, hc⟩ := exists_conditionalFiles h hpath he
      exact ⟨_, hc.condition⟩
  | type hrule hform he =>
      obtain ⟨rule, hfollows⟩ := hrule.exists_rule h
      rw [Grammar.typeForm?_eq] at hform
      cases hfollows with
      | fixed hn => simp [hn] at hform
      | computed _ _ _ _ hpatterns =>
          obtain ⟨t, -, ht⟩ := exists_mem_right_of_forall₂ hpatterns he
          exact ⟨_, ht.condition⟩

/-- Groups are well-formed from the outermost inwards. -/
theorem IsGroup.wellFormed (he : IsGroup r (List.take 1) d e) : r.grammar.WellFormed e := by
  induction he with
  | outer hpattern he =>
      obtain ⟨q, c, hc, hm, -⟩ := hpattern.exists_condition h
      obtain rfl := Option.some.inj ((mem_take_one_iff.mp he).symm.trans hc)
      exact hm.wellFormed
  | inner _ he hn ih =>
      obtain ⟨-, hmembers⟩ := ih
      cases hmembers _ he with
      | group _ hw => exact hw
      | atom hp => exact absurd hn hp.name_ne

/-- What stands where the reader looks has been placed. -/
theorem Stands.places {place : Place} (he : Stands r (List.take 1) d place e) :
    r.Places e place := by
  cases he with
  | requirement he =>
      obtain ⟨_, -, q, -, hq⟩ := exists_mem_right_of_forall₂ h.requirements he
      cases hq with
      | file hf | gameVersion hf | managerVersion hf => exact Or.inl (by simp [hf])
      | host _ hx => exact Or.inr (by simp [hx])
  | required he =>
      obtain ⟨f, -, hf⟩ := exists_mem_right_of_forall₂ h.requiredFiles he
      exact hf.places
  | plugin hplugin he =>
      obtain ⟨plugin, -, hp⟩ := exists_mem_right_of_forall₂ h.plugins hplugin
      obtain ⟨f, -, hf⟩ := exists_mem_right_of_forall₂ hp.files he
      exact hf.places
  | conditional hpath hpattern he =>
      obtain ⟨c, hc⟩ := exists_conditionalFiles h hpath hpattern
      obtain ⟨f, -, hf⟩ := exists_mem_right_of_forall₂ hc.files he
      exact hf.places
  | typeRule he =>
      obtain ⟨rule, hrule⟩ := he.exists_rule h
      exact Grammar.typeForm?_of_follows hrule
  | member hgroup he =>
      obtain ⟨-, hmembers⟩ := hgroup.wellFormed h
      exact Grammar.conditionForm?_of_wellFormed (hmembers _ he)

end

/-! ## Documents without rivals

    Where there is one element at most, all of them are looked at. -/

section

variable (h : Unrivalled r d)
include h

/-- Without rivals, what stands in a descriptor is looked at. -/
theorem InDescriptor.of_unrivalled (he : InDescriptor id d e) : InDescriptor (List.take 1) d e := by
  obtain ⟨hplugin, hdescriptor, he⟩ := he
  obtain ⟨hone, hchildren⟩ := h.descriptor _ hplugin
  refine .rule hplugin ((List.take_of_length_le hone).symm ▸ hdescriptor) ?_
  exact (List.take_of_length_le (hchildren _ hdescriptor)).symm ▸ he

theorem IsPattern.of_unrivalled (he : IsPattern r id d e) : IsPattern r (List.take 1) d e := by
  cases he with
  | conditional hpath he => exact .conditional hpath he
  | type hrule hform he => exact .type (hrule.of_unrivalled h) hform he

theorem IsGroup.of_unrivalled (he : IsGroup r id d e) : IsGroup r (List.take 1) d e := by
  induction he with
  | outer hpattern he =>
      refine .outer (hpattern.of_unrivalled h) ?_
      exact (List.take_of_length_le (h.condition _ hpattern)).symm ▸ he
  | inner _ he hn ih => exact .inner ih he hn

/-- **Without rivals all places are looked at**, whatever may stand there. -/
theorem Stands.of_unrivalled {place : Place} (he : Stands r id d place e) :
    Stands r (List.take 1) d place e := by
  cases he with
  | requirement he => exact .requirement he
  | required he => exact .required he
  | plugin hplugin he => exact .plugin hplugin he
  | conditional hpath hpattern he => exact .conditional hpath hpattern he
  | typeRule he => exact .typeRule (he.of_unrivalled h)
  | member hgroup he => exact .member (hgroup.of_unrivalled h) he

end

/-! ## Packages -/

namespace Reader

/-- **What the reader looks at has been placed.**  Of a document that is read,
    the grammar has a place for every node that stands where the reader looks,
    in lists of requirements and of files as in conditions at any nesting; and
    for every node at all that stands where nodes have to be placed, if the
    document has no second descriptor, rule or condition where the format has
    one. -/
theorem package_places_nodes {p : Package} (h : r.package d = .ok p) :
    (∀ place e, Stands r (List.take 1) d place e → r.Places e place) ∧
    (Unrivalled r d → ∀ place e, Stands r id d place e → r.Places e place) := by
  have hp : p.Follows r d := package_eq_ok_iff_follows.mp h
  exact ⟨fun _ _ he => he.places hp, fun hone _ _ he => (he.of_unrivalled hone).places hp⟩

/-- A rule that every grammar knows. -/
def typeNode : Element where
  name       := "type"
  attributes := [("name", "Optional")]

/-- A node that no grammar knows anywhere. -/
def strayNode : Element where
  name := "bogus"

/-- A document with one plugin, in whose descriptor some nodes stand. -/
def described (rules : List Element) : Document where
  root := {
    name := "config"
    children := [
      { name := "moduleName", text := "M" },
      { name := "groups", children := [
        { name := "group", attributes := [("name", "G"), ("type", "SelectAny")], children := [
          { name := "plugins", children := [
            { name := "plugin", attributes := [("name", "P")], children := [
              { name := "description" },
              { name := "typeDescriptor", children := rules }] }] }] }] }] }

/-- The package in such a document, if the known rule comes first. -/
def describedPackage : Package where
  version      := "2.0"
  name         := "M"
  requirements := ⟨.all, []⟩
  groups       := [⟨"G", .any, [{ name := "P", description := "", typeRule := .fixed .optional }]⟩]

/-- Whatever stands behind the first rule goes unnoticed. -/
theorem package_described (rules : List Element) :
    (Reader.mk .v2 {} .declining .pathOnly).package (described (typeNode :: rules))
      = .ok describedPackage :=
  rfl

/-- One type rule in one descriptor has no rival. -/
theorem described_unrivalled :
    Unrivalled (.mk .v2 {} .declining .pathOnly) (described [typeNode]) where
  descriptor := by decide
  condition := by
    have hfixed : ∀ plugin ∈ (described [typeNode]).select "/config/groups/*/plugins/*",
        ∀ descriptor ∈ plugin.select "typeDescriptor", ∀ rule ∈ descriptor.children,
          Grammar.v2.typeForm? rule.name ≠ some .computed := by
      decide
    intro pattern hpattern
    cases hpattern with
    | conditional hpath he =>
        obtain rfl := Option.some.inj hpath
        exact nomatch he
    | type hrule hform he =>
        obtain ⟨hplugin, hdescriptor, hrule⟩ := hrule
        exact absurd hform (hfixed _ hplugin _ hdescriptor _ hrule)

/-- With the known rule alone every node has its place.  A node behind the rule
    has none, and the reader gives the same package. -/
theorem package_places_nodes_described :
    (Reader.mk .v2 {} .declining .pathOnly).package (described [typeNode]) = .ok describedPackage ∧
    (∀ place e, Stands (.mk .v2 {} .declining .pathOnly) id (described [typeNode]) place e →
      (Reader.mk .v2 {} .declining .pathOnly).Places e place) ∧
    (Reader.mk .v2 {} .declining .pathOnly).package (described [typeNode, strayNode])
      = .ok describedPackage ∧
    (∀ place e, Stands (.mk .v2 {} .declining .pathOnly) (List.take 1)
      (described [typeNode, strayNode]) place e →
      (Reader.mk .v2 {} .declining .pathOnly).Places e place) ∧
    Stands (.mk .v2 {} .declining .pathOnly) id (described [typeNode, strayNode]) .typeRule
      strayNode ∧
    ¬ (Reader.mk .v2 {} .declining .pathOnly).Places strayNode .typeRule := by
  obtain ⟨-, hplain⟩ := package_places_nodes (package_described [])
  obtain ⟨hlooked, -⟩ := package_places_nodes (package_described [strayNode])
  refine ⟨package_described [], hplain described_unrivalled, package_described [strayNode], hlooked,
    .typeRule ?_, by decide⟩
  exact .rule (List.mem_singleton.mpr rfl) (List.mem_singleton.mpr rfl)
    (List.mem_cons_of_mem _ (List.mem_singleton.mpr rfl))

end Reader

end ModInstall
