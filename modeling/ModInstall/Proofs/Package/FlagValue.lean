import ModInstall.Proofs.InstallState.Flags
import ModInstall.Proofs.Markup.Path
import ModInstall.Proofs.Markup.Writing
import ModInstall.Proofs.Package.ConditionGrammar
import ModInstall.Proofs.Package.Parts

/-! # Flags and the conditions that test them

    A plugin sets a flag to the content of an element, and a condition tests
    it against the value of an attribute.  Both are written with entities, but
    only the attribute is unescaped when it is read: a flag keeps its content
    as written.  So a flag that is set to a value passes the test for that
    value exactly when the value is written as it is. -/

namespace ModInstall

open Markup

/-! ## Where things stand in a source -/

namespace Markup.Node

/-- What is written as an element that sets a flag to a value: the flag is
    named in an attribute, and the value is the content. -/
inductive SetsFlag (name value : String) : Node → Prop
  | written {attributes : List (String × String)} {content : List Item} {short : Bool}
      {flag : Node} :
      Writable [.element "flag" attributes content short] → ("name", name) ∈ attributes →
      Item.writeAll content = escape value.toList →
      Item.nodesOf [.element "flag" attributes content short] = [flag] → SetsFlag name value flag

/-- What is written as an element that tests a flag for a value, both of them
    attributes. -/
inductive TestsFlag (name value : String) : Node → Prop
  | written {attributes : List (String × String)} {content : List Item} {short : Bool}
      {test : Node} :
      Writable [.element "flagDependency" attributes content short] →
      ("flag", name) ∈ attributes → ("value", value) ∈ attributes →
      Item.nodesOf [.element "flagDependency" attributes content short] = [test] →
      TestsFlag name value test

/-- The places in the source of a configuration where a condition begins: in
    the patterns of conditional files, and in the type patterns of plugins. -/
inductive HoldsCondition (root : Node) : Node → Prop
  | files {pattern condition : Node} :
      pattern ∈ root.select "conditionalFileInstalls/patterns/*" →
      (pattern.select "dependencies").head? = some condition → HoldsCondition root condition
  | type {group plugin descriptor rule pattern condition : Node} :
      group ∈ root.select "groups/*" → plugin ∈ group.select "plugins/*" →
      (plugin.select "typeDescriptor").head? = some descriptor →
      descriptor.elements.head? = some rule → rule.name = "dependencyType" →
      pattern ∈ rule.select "patterns/*" →
      (pattern.select "dependencies").head? = some condition → HoldsCondition root condition

/-- The members of a condition, those of the groups in it included. -/
inductive HoldsMember : Node → Node → Prop
  | here {condition member : Node} :
      member ∈ condition.elements → HoldsMember condition member
  | inside {condition group member : Node} :
      group ∈ condition.elements → group.name = "dependencies" → HoldsMember group member →
      HoldsMember condition member

end Markup.Node

theorem Grammar.eq_of_ne_v1 {g : Grammar} (h : g ≠ .v1) : g = .v2 ∨ g = .v3 := by
  cases g with
  | v1 => exact absurd rfl h
  | v2 => exact .inl rfl
  | v3 => exact .inr rfl

namespace Reader

variable {r : Reader} {d : Document} {p : Package}

/-! ## What is read from there -/

/-- A flag test that a condition holds in the source is an atom of what the
    condition is read to. -/
theorem mem_atoms_of_holdsMember {g : Grammar} {condition member : Node} {e c : Element}
    {q : Requirement} {name value : String} (h : condition.HoldsMember member)
    (hcondition : condition.Reads e) (hmember : member.Reads c) (hq : Grammar.Mirrors g e q)
    (hname : c.name = "flagDependency") (hflag : c.attribute? "flag" = some name)
    (hvalue : c.attribute? "value" = some value) : .flag name value ∈ q.atoms := by
  induction h generalizing e q with
  | here hmem =>
      -- the member is the test itself, and a test of a flag is read to an atom
      obtain ⟨_, hms⟩ := hq
      obtain ⟨c', hc', hreads⟩ := exists_mem_right_of_forall₂ hcondition.elements hmem
      obtain rfl := hreads.unique hmember
      obtain ⟨m, hm, hmirrors⟩ := exists_mem_right_of_forall₂ hms hc'
      refine Condition.mem_atomsList.mpr ⟨m, hm, ?_⟩
      cases hmirrors with
      | group hn _ => exact absurd (hname.symm.trans hn) (by decide)
      | atom hp =>
          obtain ⟨-, name', value', hf, hv, rfl⟩ := (Grammar.asks_iff_of_flag hname).mp hp
          obtain rfl := Option.some.inj (hflag.symm.trans hf)
          obtain rfl := Option.some.inj (hvalue.symm.trans hv)
          exact List.mem_singleton_self _
  | inside hmem hgroup _ ih =>
      -- the member is a group that has the test somewhere in it
      obtain ⟨_, hms⟩ := hq
      obtain ⟨c', hc', hreads⟩ := exists_mem_right_of_forall₂ hcondition.elements hmem
      obtain ⟨m, hm, hmirrors⟩ := exists_mem_right_of_forall₂ hms hc'
      refine Condition.mem_atomsList.mpr ⟨m, hm, ?_⟩
      cases hmirrors with
      | group _ hq' => exact ih hreads hmember hq'
      | atom hp => exact absurd (hreads.name_eq.trans hgroup) hp.name_ne

/-- The root of a document that describes a package is the configuration. -/
theorem root_answers (h : r.package d = .ok p) : d.root.answers "config" = true := by
  obtain ⟨-, hname, -⟩ := package_eq_ok_iff.mp h
  have hselect : d.select "/config/moduleName"
      = if d.root.answers "config" then d.root.select "moduleName" else [] :=
    Document.select_absolute (by decide) (by decide)
  cases ha : d.root.answers "config" with
  | true => rfl
  | false =>
      rw [packageName, Document.selectFirst?, hselect, ha] at hname
      cases hname

/-- The document is searched from its root. -/
theorem select_eq (h : r.package d = .ok p) {path : String} (rest : String)
    (hpath : path.toList = '/' :: ("config".toList ++ '/' :: rest.toList)) :
    d.select path = d.root.select rest :=
  select_config (root_answers h) rest hpath

variable {root : Node}

/-- A plugin in the source is one of the package. -/
theorem exists_plugin {group plugin : Node} (hroot : root.Reads d.root)
    (h : r.package d = .ok p) (hgroup : group ∈ root.select "groups/*")
    (hplugin : plugin ∈ group.select "plugins/*") :
    ∃ pl ∈ p.plugins, ∃ e, plugin.Reads e ∧ r.plugin e = .ok pl := by
  obtain ⟨-, -, -, -, -, hgroups, -⟩ := package_eq_ok_iff.mp h
  rw [groups, select_eq h "groups/*" (by decide)] at hgroups
  obtain ⟨ge, hge, hgroupReads⟩ := exists_mem_right_of_forall₂ (hroot.select "groups/*") hgroup
  obtain ⟨g, hg, hread⟩ := exists_mem_right_of_forall₂ (mapM_eq_ok_iff.mp hgroups) hge
  obtain ⟨-, -, hplugins⟩ := group_eq_ok_iff.mp hread
  obtain ⟨pe, hpe, hpluginReads⟩ :=
    exists_mem_right_of_forall₂ (hgroupReads.select "plugins/*") hplugin
  obtain ⟨pl, hpl, hread⟩ := exists_mem_right_of_forall₂ (mapM_eq_ok_iff.mp hplugins) hpe
  exact ⟨pl, List.mem_flatMap.mpr ⟨g, hg, hpl⟩, pe, hpluginReads, hread⟩

/-- A type pattern in the source is one of the package. -/
theorem exists_typePattern {group plugin descriptor rule pattern : Node}
    (hgrammar : r.grammar ≠ .v1) (hroot : root.Reads d.root) (h : r.package d = .ok p)
    (hgroup : group ∈ root.select "groups/*") (hplugin : plugin ∈ group.select "plugins/*")
    (hdescriptor : (plugin.select "typeDescriptor").head? = some descriptor)
    (hrule : descriptor.elements.head? = some rule) (hname : rule.name = "dependencyType")
    (hpattern : pattern ∈ rule.select "patterns/*") :
    ∃ t ∈ p.typePatterns, ∃ e, pattern.Reads e ∧ r.typePattern e = .ok t := by
  obtain ⟨pl, hpl, pe, hpluginReads, hread⟩ := exists_plugin hroot h hgroup hplugin
  obtain ⟨-, -, ⟨te, hte, htype⟩, -⟩ := plugin_eq_ok_iff.mp hread
  obtain ⟨de, hde, hdescriptorReads⟩ := hpluginReads.selectFirst? hdescriptor
  obtain ⟨re, hre, hruleReads⟩ := head?_of_forall₂ hdescriptorReads.elements hrule
  obtain ⟨de', hde', hte⟩ := typeElement_eq_ok_iff.mp hte
  obtain rfl := Option.some.inj (hde.symm.trans hde')
  obtain rfl := Option.some.inj (hre.symm.trans hte)
  -- the rule has patterns, since it is not a fixed type
  have hform : r.grammar.typeForm? re.name = some .computed := by
    rw [hruleReads.name_eq, hname]
    rcases Grammar.eq_of_ne_v1 hgrammar with hg | hg <;> rw [hg] <;> rfl
  rw [typeRule, hform] at htype
  simp only [bind_eq_ok_iff, pure_eq_ok_iff] at htype
  obtain ⟨_, -, default, -, ts, hts, hrule⟩ := htype
  obtain ⟨e, he, hpatternReads⟩ :=
    exists_mem_right_of_forall₂ (hruleReads.select "patterns/*") hpattern
  obtain ⟨t, ht, hread⟩ := exists_mem_right_of_forall₂ (mapM_eq_ok_iff.mp hts) he
  exact ⟨t, List.mem_flatMap.mpr ⟨pl, hpl, by rw [← hrule]; exact ht⟩, e, hpatternReads, hread⟩

/-- A condition in the source is one of the package. -/
theorem exists_condition {condition : Node} (hgrammar : r.grammar ≠ .v1)
    (hroot : root.Reads d.root) (h : r.package d = .ok p)
    (hcondition : root.HoldsCondition condition) :
    ∃ q ∈ p.conditions, ∃ e, condition.Reads e ∧ r.requirement e = .ok q := by
  cases hcondition with
  | @files pattern _ hpattern hfirst =>
      obtain ⟨-, -, -, -, -, -, hfiles⟩ := package_eq_ok_iff.mp h
      have hpath : r.grammar.conditionalFilesPath
          = some "/config/conditionalFileInstalls/patterns/*" := by
        rcases Grammar.eq_of_ne_v1 hgrammar with hg | hg <;> rw [hg] <;> rfl
      rw [conditionalFiles, hpath] at hfiles
      dsimp only at hfiles
      rw [select_eq h "conditionalFileInstalls/patterns/*" (by decide)] at hfiles
      obtain ⟨pe, hpe, hreads⟩ := exists_mem_right_of_forall₂ (hroot.select _) hpattern
      obtain ⟨c, hc, hread⟩ := exists_mem_right_of_forall₂ (mapM_eq_ok_iff.mp hfiles) hpe
      obtain ⟨⟨e, he, hq⟩, -⟩ := conditionalPattern_eq_ok_iff.mp hread
      obtain ⟨e', he', hcondition⟩ := hreads.selectFirst? hfirst
      obtain rfl := Option.some.inj (he.symm.trans he')
      exact ⟨c.condition, List.mem_append_right _ (List.mem_map_of_mem hc), e, hcondition, hq⟩
  | type hgroup hplugin hdescriptor hrule hname hpattern hfirst =>
      obtain ⟨t, ht, te, hreads, hread⟩ := exists_typePattern hgrammar hroot h hgroup hplugin
        hdescriptor hrule hname hpattern
      obtain ⟨-, e, he, hq⟩ := typePattern_eq_ok_iff.mp hread
      obtain ⟨e', he', hcondition⟩ := hreads.selectFirst? hfirst
      obtain rfl := Option.some.inj (he.symm.trans he')
      exact ⟨t.condition, List.mem_append_left _ (List.mem_map_of_mem ht), e, hcondition, hq⟩

/-- A flag that was written is read to its name and to its value as written. -/
theorem exists_of_setsFlag {flag : Node} {name value : String} (h : flag.SetsFlag name value) :
    ∃ e, flag.Reads e ∧ e.attribute? "name" = some name ∧
      e.content = String.ofList (escape value.toList) := by
  cases h with
  | @written attributes content _ _ hw hname hvalue hn =>
      obtain ⟨n, hn', hreads⟩ := exists_nodesOf hw
      obtain rfl := (List.cons.inj (hn.symm.trans hn')).1
      have hnone : Item.elementsOf content = [] :=
        elementsOf_eq_nil (hvalue ▸ not_mem_escape (by decide) value.toList)
      cases hw with
      | element _ hattributes _ _ =>
          refine ⟨_, hreads, hattributes.lookup_eq hname, ?_⟩
          rw [hnone, ← hvalue]
          rfl

/-- A test that was written is read to its name and its value. -/
theorem exists_of_testsFlag {test : Node} {name value : String} (h : test.TestsFlag name value) :
    ∃ e, test.Reads e ∧ e.name = "flagDependency" ∧ e.attribute? "flag" = some name ∧
      e.attribute? "value" = some value := by
  cases h with
  | written hw hname hvalue hn =>
      obtain ⟨n, hn', hreads⟩ := exists_nodesOf hw
      obtain rfl := (List.cons.inj (hn.symm.trans hn')).1
      cases hw with
      | element _ hattributes _ _ =>
          exact ⟨_, hreads, rfl, hattributes.lookup_eq hname, hattributes.lookup_eq hvalue⟩

/-- The last value of a flag is what was written in the last element that sets
    it. -/
theorem lastValue_of_setsFlag {plugin flag : Node} {before behind : List Node} {e : Element}
    {pl : Plugin} {name value : String} (hgrammar : r.grammar ≠ .v1) (hplugin : plugin.Reads e)
    (h : r.plugin e = .ok pl) (hflag : flag.SetsFlag name value)
    (hflags : plugin.select "conditionFlags/*" = before ++ flag :: behind)
    (hlater : ∀ m ∈ behind, ∀ c, m.Reads c → c.attribute? "name" ≠ some name) :
    InstallState.lastValue pl.flags name = some (String.ofList (escape value.toList)) := by
  obtain ⟨-, -, -, -, -, hread⟩ := plugin_eq_ok_iff.mp h
  have hreads : r.grammar.readsFlags = true := by
    rcases Grammar.eq_of_ne_v1 hgrammar with hg | hg <;> rw [hg] <;> rfl
  rw [flagsOf, if_pos hreads] at hread
  have hselect := hplugin.select "conditionFlags/*"
  rw [hflags] at hselect
  -- what stands before and behind the flag is read to what comes before and behind
  obtain ⟨es₁, es₂, hes, -, hes₂⟩ := forall₂_append_left hselect
  rw [hes] at hread
  obtain ⟨fs₁, fs₂, hfs, -, hfs₂⟩ := forall₂_append_left (mapM_eq_ok_iff.mp hread)
  obtain ⟨c, hc, hname, hvalue⟩ := exists_of_setsFlag hflag
  cases hes₂ with
  | cons hreads hbehind =>
      obtain rfl := hreads.unique hc
      cases hfs₂ with
      | @cons _ f _ later hf hlaterRead =>
          have hlast : InstallState.lastValue later name = none := by
            refine InstallState.lastValue_eq_none fun f hf he => ?_
            obtain ⟨c, hc, hcf⟩ := exists_mem_left_of_forall₂ hlaterRead hf
            obtain ⟨m, hm, hmc⟩ := exists_mem_left_of_forall₂ hbehind hc
            exact hlater m hm c hmc (he ▸ (flag_eq_ok_iff.mp hcf).1)
          obtain ⟨hn, hv⟩ := flag_eq_ok_iff.mp hf
          obtain rfl := Option.some.inj (hname.symm.trans hn)
          rw [hfs, List.append_cons, InstallState.lastValue_append, hlast,
            InstallState.lastValue_append, InstallState.lastValue_singleton, if_pos rfl, ← hv,
            hvalue]
          rfl

end Reader

/-- **A flag passes the test for the value that it was set to exactly when the
    value is written as it is**, that is, when it holds none of the five
    characters that are written as entities. -/
theorem Reader.flag_passes_test_iff {r : Reader} {limit : Nat} {source : String} {d : Document}
    {p : Package} {root group plugin flag condition test : Node} {before behind : List Node}
    {name value : String} (hgrammar : r.grammar ≠ .v1)
    (hparse : Document.parse limit source = .ok d) (hpackage : r.package d = .ok p)
    (hroot : root.IsRootOf (Document.withoutMarks source.toList))
    (hgroup : group ∈ root.select "groups/*") (hplugin : plugin ∈ group.select "plugins/*")
    (hflags : plugin.select "conditionFlags/*" = before ++ flag :: behind)
    (hflag : flag.SetsFlag name value)
    (hlater : ∀ m ∈ behind, ∀ e, m.Reads e → e.attribute? "name" ≠ some name)
    (hcondition : root.HoldsCondition condition) (hmember : condition.HoldsMember test)
    (htest : test.TestsFlag name value) :
    ∃ pl ∈ p.plugins, (∃ e, plugin.Reads e ∧ r.plugin e = .ok pl) ∧
      ∃ q ∈ p.conditions, (∃ e, condition.Reads e ∧ r.requirement e = .ok q) ∧
        .flag name value ∈ q.atoms ∧
        ∀ s : InstallState, (Predicate.flag name value).evaluate (s.choose pl).facts
          = .ok (value.toList.all (· ∉ named)) := by
  have hreads := Document.reads_of_parse hparse hroot
  obtain ⟨pl, hpl, pe, hpluginReads, hread⟩ := exists_plugin hreads hpackage hgroup hplugin
  obtain ⟨q, hq, e, hconditionReads, hrequirement⟩ :=
    exists_condition hgrammar hreads hpackage hcondition
  obtain ⟨c, htestReads, hname, htested, hvalue⟩ := exists_of_testsFlag htest
  refine ⟨pl, hpl, ⟨pe, hpluginReads, hread⟩, q, hq, ⟨e, hconditionReads, hrequirement⟩,
    mem_atoms_of_holdsMember hmember hconditionReads htestReads
      (requirement_eq_ok_iff.mp hrequirement).1 hname htested hvalue, fun s => ?_⟩
  -- the flag holds the value as it was written
  have hset : (s.choose pl).flagValue name = some (String.ofList (escape value.toList)) := by
    have hchoose : ([pl].foldl InstallState.choose s).flagValue name = _ :=
      InstallState.flagValue_foldl_choose s [pl]
    rw [List.flatMap_singleton,
      lastValue_of_setsFlag hgrammar hpluginReads hread hflag hflags hlater] at hchoose
    exact hchoose
  have hsame : String.ofList (escape value.toList) = value ↔ ∀ c ∈ value.toList, c ∉ named := by
    rw [← escape_eq_self_iff, ← String.toList_inj, String.toList_ofList]
  refine congrArg Except.ok ?_
  show ((s.choose pl).flagValue name == some value) = _
  rw [hset, Bool.eq_iff_iff, beq_iff_eq, Option.some.injEq, hsame]
  simp only [List.all_eq_true, decide_eq_true_iff]

/-! ## A flag and its test -/

/-- An element that sets a flag to a value. -/
def flagItem (name value : String) : Item :=
  .element "flag" [("name", name)] [.text value] false

/-- An element that tests a flag for a value. -/
def testItem (name value : String) : Item :=
  .element "flagDependency" [("flag", name), ("value", value)] [] true

/-- The content of a configuration with one plugin, which sets a flag to a
    value, and with one condition, which tests the flag for that value. -/
def flagContent (value : String) : List Item := [
  .element "moduleName" [] [] true,
  .element "groups" [] [.element "group" [("name", "G"), ("type", "SelectAny")] [
    .element "plugins" [] [.element "plugin" [("name", "P")] [
      .element "description" [] [] true,
      .element "typeDescriptor" [] [.element "type" [("name", "Optional")] [] true] true,
      .element "conditionFlags" [] [flagItem "F" value] true] true] true] true] true,
  .element "conditionalFileInstalls" [] [.element "patterns" [] [.element "pattern" [] [
    .element "dependencies" [("operator", "And")] [testItem "F" value] true] true] true] true]

/-- The configuration with that content, as it is written. -/
def flagSource (value : String) : String :=
  writeDocument 0 [] (.element "config" [] (flagContent value) true) []

/-- The document that it loads as. -/
def flagDocument (value : String) : Document where
  root := Item.elementWith "config" [] (flagContent value) (Item.elementsOf (flagContent value))

/-- The root of its source. -/
def flagRoot (value : String) : Node :=
  .element (writeTag "config" []) (Item.nodesOf (flagContent value)) "config".toList

/-- The package that it describes: the flag keeps its value as written. -/
def flagPackage (value : String) : Package where
  version          := "2.0"
  name             := ""
  requirements     := { operator := .all }
  groups           := [{ name := "G", type := .any, plugins := [
    { name := "P", description := "", typeRule := .fixed .optional,
      flags := [⟨"F", String.ofList (Item.writeAll [.text value])⟩] }] }]
  conditionalFiles := [{ condition := ⟨.all, [.atom (.flag "F" value)]⟩ }]

theorem writable_flagItem (name value : String) : Writable [flagItem name value] :=
  .element _ (.singleton (by decide) (by decide) (by decide) _) (.text _ .nil) .nil

theorem writable_testItem (name value : String) : Writable [testItem name value] :=
  .element _ ⟨by decide, by simp; decide, by simp⟩ .nil .nil

/-- The package can be read back, whatever the value is. -/
theorem writable_flagContent (value : String) :
    Writable [.element "config" [] (flagContent value) true] := by
  have htype : Writable [.element "type" [("name", "Optional")] [] true] :=
    .element _ (.singleton (by decide) (by decide) (by decide) _) .nil .nil
  have hplugin : Writable [.element "description" [] [] true,
      .element "typeDescriptor" [] [.element "type" [("name", "Optional")] [] true] true,
      .element "conditionFlags" [] [flagItem "F" value] true] :=
    .element _ (.nil (by decide)) .nil (.element _ (.nil (by decide)) htype
      (.element _ (.nil (by decide)) (writable_flagItem _ _) .nil))
  refine .element _ (.nil (by decide)) ?_ .nil
  refine .element _ (.nil (by decide)) .nil (.element _ (.nil (by decide)) ?_
    (.element _ (.nil (by decide)) ?_ .nil))
  · refine .element _ ⟨by decide, by decide, by decide⟩ ?_ .nil
    refine .element _ (.nil (by decide)) ?_ .nil
    exact .element _ (.singleton (by decide) (by decide) (by decide) _) hplugin .nil
  · refine .element _ (.nil (by decide)) (.element _ (.nil (by decide)) ?_ .nil) .nil
    exact .element _ (.singleton (by decide) (by decide) (by decide) _) (writable_testItem _ _) .nil

/-- The source of the package has its root and nothing around it. -/
theorem isRootOf_flagSource (value : String) :
    (flagRoot value).IsRootOf (Document.withoutMarks (flagSource value).toList) :=
  isRootOf_writeDocument 0 (writable_flagContent value) rfl nofun nofun

/-- The source loads as the document of the package. -/
theorem parse_flagSource (value : String) :
    Document.parse Document.defaultDepthLimit (flagSource value) = .ok (flagDocument value) := by
  obtain ⟨n, hn, hreads⟩ := exists_nodesOf (writable_flagContent value)
  obtain rfl : flagRoot value = n := (List.cons.inj hn).1
  have hnesting : (flagDocument value).root.nesting = 7 := by
    simp [flagDocument, flagContent, flagItem, testItem, Item.elementWith, Item.elementsOf,
      Item.elements, Element.nesting, Element.nestingList]
  rw [Document.parse_eq_ok_iff, hnesting]
  exact ⟨⟨flagRoot value, isRootOf_flagSource value, by rw [flagDocument]; exact hreads⟩, by decide⟩

/-- The document is read to the package: one plugin that sets the flag, and
    files that ask for it. -/
theorem package_flagDocument (value : String) :
    Reader.package { grammar := .v2 } (flagDocument value) = .ok (flagPackage value) := by
  rfl

/-- A plain word passes its own test. -/
theorem Reader.flag_passes_test_word :
    Document.parse Document.defaultDepthLimit (flagSource "on") = .ok (flagDocument "on") ∧
      package { grammar := .v2 } (flagDocument "on") = .ok (flagPackage "on") ∧
      ∃ pl ∈ (flagPackage "on").plugins, ∀ s : InstallState,
        (Predicate.flag "F" "on").evaluate (s.choose pl).facts = .ok true := by
  have hparse := parse_flagSource "on"
  have hpackage := package_flagDocument "on"
  obtain ⟨pl, hpl, -, -, -, -, -, hpass⟩ := flag_passes_test_iff (by decide) hparse hpackage
    (isRootOf_flagSource "on") (List.mem_singleton_self _) (List.mem_singleton_self _)
    (List.nil_append _).symm
    (.written (writable_flagItem "F" "on") (List.mem_singleton_self _) rfl rfl) nofun
    (.files (List.mem_singleton_self _) rfl) (.here (List.mem_singleton_self _))
    (.written (writable_testItem "F" "on") (List.mem_cons_self ..)
      (List.mem_cons_of_mem _ (List.mem_singleton_self _)) rfl)
  refine ⟨hparse, hpackage, pl, hpl, fun s => ?_⟩
  rw [hpass s]
  rfl

/-- A value with an ampersand does not: the flag is set to the entity. -/
theorem Reader.flag_fails_test_ampersand :
    Document.parse Document.defaultDepthLimit (flagSource "a & b") = .ok (flagDocument "a & b") ∧
      package { grammar := .v2 } (flagDocument "a & b") = .ok (flagPackage "a & b") ∧
      ∀ pl ∈ (flagPackage "a & b").plugins,
        (Predicate.flag "F" "a & b").evaluate (InstallState.empty.choose pl).facts = .ok false := by
  refine ⟨parse_flagSource _, package_flagDocument _, fun pl hpl => ?_⟩
  obtain rfl := List.mem_singleton.mp hpl
  decide

end ModInstall
