import ModInstall.Proofs.Markup.Select
import ModInstall.Proofs.Package.ConditionGrammar
import ModInstall.Proofs.Package.Parts

/-! # Errors name defects

    Whoever repairs a package goes by the error: the node that is out of place,
    the attribute or child that is not there, the value that is none.
    `Defect` says, apart from the reader, what each error claims of a document,
    and the readers fail only with errors that claim what is so
    (`FailsOnly (Defect r d)`), each by the claims of its steps.

    A step can claim no more than it knows about the place where it stands, so
    the lemmas carry the place: an element that the document contains, an entry
    of a list, a group of conditions at its level (`GroupAt`). -/

namespace ModInstall

open Markup (Element Document)

/-! ## What errors claim -/

namespace ValueKind

/-- The texts that stand for a value of some kind. -/
def Accepts : ValueKind → String → Prop
  | .operator, text => ∃ o : Operator, text = o.name
  | .fileState, text => ∃ s : FileState, text = s.name
  | .pluginType, text => ∃ t : PluginType, text = t.name
  | .groupType, text => ∃ t : GroupType, text = t.name
  | .priority, text => ∃ n, SaysPriority (some text) n
  | .boolean, text => text ∈ ["true", "1", "false", "0"]

/-- The attributes that hold values of some kind. -/
def keys : ValueKind → List String
  | .operator => ["operator"]
  | .fileState => ["state"]
  | .pluginType => ["name"]
  | .groupType => ["type"]
  | .priority => ["priority"]
  | .boolean => ["alwaysInstall", "installIfUsable"]

end ValueKind

/-- Where groups of conditions stand in a document, and at which level: the
    outermost belongs to a pattern, and the others are members of groups. -/
inductive Markup.Document.GroupAt (d : Document) : Nat → Element → Prop
  | outer {list pattern e : Element} :
      d.Contains list → list.name = "patterns" → pattern ∈ list.children →
      e ∈ pattern.children → e.name = "dependencies" → GroupAt d 1 e
  | inner {level : Nat} {group e : Element} :
      GroupAt d level group → e ∈ group.children → e.name = "dependencies" →
      GroupAt d (level + 1) e

/-- What an error claims of a document that is read by `r`.  A child that is
    missed under the name `*` could have any name.  The errors without a
    constructor are not about the content of a document. -/
inductive Defect (r : Reader) (d : Document) : ConfigError → Prop
  | packageNode {list e : Element} :
      list ∈ d.root.children → list.name = "moduleDependencies" → e ∈ list.children →
      r.grammar.packageForm? e.name = none → r.extension e = none →
      Defect r d (.unknownNode e.name)
  | conditionNode {level : Nat} {group e : Element} :
      d.GroupAt level group → e ∈ group.children → r.grammar.conditionForm? e.name = none →
      Defect r d (.unknownNode e.name)
  | typeNode {descriptor e : Element} :
      d.Contains descriptor → descriptor.name = "typeDescriptor" →
      descriptor.children.head? = some e → r.grammar.typeForm? e.name = none →
      Defect r d (.unknownNode e.name)
  | fileNode {list e : Element} :
      d.Contains list → list.name ∈ ["requiredInstallFiles", "files"] → e ∈ list.children →
      e.name ∉ ["file", "folder"] → Defect r d (.unknownFileNode e.name)
  | attribute {e : Element} {key : String} :
      d.Contains e → (∀ a ∈ e.attributes, a.1 ≠ key) → Defect r d (.missingAttribute e.name key)
  | child {e : Element} {name : String} :
      d.Contains e → (∀ c ∈ e.children, ¬ c.answers name) → Defect r d (.missingChild e.name name)
  | value {e : Element} {kind : ValueKind} {key text : String} :
      d.Contains e → key ∈ kind.keys → e.attribute? key = some text → ¬ kind.Accepts text →
      Defect r d (.badValue kind text)
  | version {e : Element} {text : String} :
      d.Contains e → e.attribute? "version" = some text → Version.parse? text = none →
      Defect r d (.badVersion text)
  | depth {level : Nat} {group : Element} :
      d.GroupAt level group → r.options.maxConditionDepth < level →
      Defect r d (.conditionTooDeep r.options.maxConditionDepth)

namespace Reader

open Grammar

variable {α : Type} {r : Reader} {d : Document} {e : Element}

/-! ## Attributes and children -/

/-- An attribute that is missed is not there. -/
theorem requireAttribute_fails (he : d.Contains e) (key : String) :
    FailsOnly (Defect r d) (requireAttribute e key) := by
  rw [requireAttribute]
  cases hk : e.attribute? key with
  | some value => exact .ok value
  | none =>
      refine .error (.attribute he fun a ha hn => ?_)
      exact absurd hn.symm (bne_iff_ne.mp (List.lookup_eq_none_iff.mp hk a ha))

/-- A child that is missed is not there. -/
theorem requireChild_fails (he : d.Contains e) {name : String}
    (hpath : Element.segments name = [name]) (hname : name ≠ "*") :
    FailsOnly (Defect r d) (requireChild e name) := by
  rw [requireChild]
  cases hc : e.selectFirst? name with
  | some child => exact .ok child
  | none =>
      refine .error (.child he fun c hmem ha => ?_)
      exact Element.selectFirst?_eq_none hpath hname hc c hmem ((Element.answers_iff hname).mp ha)

/-- Where a text of an attribute gives no value, it is none of its kind. -/
theorem valueOr_fails (he : d.Contains e) {kind : ValueKind} {key text : String}
    (hkey : key ∈ kind.keys) (ht : e.attribute? key = some text) {value? : Option α}
    (hnone : value? = none → ¬ kind.Accepts text) :
    FailsOnly (Defect r d) (valueOr kind text value?) := by
  cases value? with
  | some value => exact .ok value
  | none => exact .error (.value he hkey ht (hnone rfl))

/-- A value fails where its attribute is missing or says something else. -/
theorem requireValue_fails (he : d.Contains e) {kind : ValueKind} {ofText? : String → Option α}
    {key : String} (hkey : key ∈ kind.keys)
    (hnone : ∀ text, ofText? text = none → ¬ kind.Accepts text) :
    FailsOnly (Defect r d) (requireValue kind ofText? e key) := by
  refine (requireAttribute_fails he key).bind fun text ht => ?_
  exact valueOr_fails he hkey (requireAttribute_eq_ok_iff.mp ht) (hnone text)

/-- A version fails where its attribute is missing or says none. -/
theorem requireVersion_fails (he : d.Contains e) : FailsOnly (Defect r d) (requireVersion e) := by
  refine (requireAttribute_fails he _).bind fun text ht err herr => ?_
  obtain ⟨rfl, hv⟩ := versionOf_eq_error_iff.mp herr
  exact .version he (requireAttribute_eq_ok_iff.mp ht) hv

/-- Where a kind of value is written by name, a text that gives none is no name. -/
theorem requireNamed_fails (he : d.Contains e) {kind : ValueKind} {ofName? : String → Option α}
    {name : α → String} {key : String} (hkey : key ∈ kind.keys)
    (hname : ∀ {text a}, ofName? text = some a ↔ text = name a)
    (hkind : ∀ {text}, kind.Accepts text → ∃ a, text = name a) :
    FailsOnly (Defect r d) (requireValue kind ofName? e key) := by
  refine requireValue_fails he hkey fun text hnone haccepts => ?_
  obtain ⟨a, ha⟩ := hkind haccepts
  exact nomatch hnone.symm.trans (hname.mpr ha)

theorem requireOperator_fails (he : d.Contains e) :
    FailsOnly (Defect r d) (requireValue .operator Operator.ofName? e "operator") :=
  requireNamed_fails he (by decide) Operator.ofName?_eq_some_iff id

theorem requireState_fails (he : d.Contains e) :
    FailsOnly (Defect r d) (requireValue .fileState FileState.ofName? e "state") :=
  requireNamed_fails he (by decide) FileState.ofName?_eq_some_iff id

theorem requireType_fails (he : d.Contains e) : FailsOnly (Defect r d) (requireType e) :=
  requireNamed_fails he (by decide) PluginType.ofName?_eq_some_iff id

theorem requireGroupType_fails (he : d.Contains e) :
    FailsOnly (Defect r d) (requireValue .groupType GroupType.ofName? e "type") :=
  requireNamed_fails he (by decide) GroupType.ofName?_eq_some_iff id

/-- A priority is refused only where it is written and is no number of 32
    bits. -/
theorem readPriority_fails (he : d.Contains e) : FailsOnly (Defect r d) (readPriority e) := by
  rw [readPriority]
  cases ht : e.attribute? "priority" with
  | none => exact .ok 0
  | some text =>
      refine valueOr_fails he (by decide) ht fun hnone => ?_
      rintro ⟨n, hn⟩
      cases hnone.symm.trans (int32?_trim_eq_some_iff.mpr hn)

/-- Four words are taken for truths. -/
theorem truth?_eq_none_iff {text : String} :
    truth? text = none ↔ ¬ ValueKind.boolean.Accepts text := by
  simp only [truth?, ValueKind.Accepts, List.mem_cons, List.not_mem_nil]
  split_ifs <;> grind

/-- A truth is refused only where it is written otherwise. -/
theorem readTruth_fails (he : d.Contains e) {key : String} (hkey : key ∈ ValueKind.boolean.keys) :
    FailsOnly (Defect r d) (readTruth e key) := by
  rw [readTruth]
  cases ht : e.attribute? key with
  | none => exact .ok false
  | some text => exact valueOr_fails he hkey ht truth?_eq_none_iff.mp

/-! ## Files and flags -/

/-- Two kinds of nodes stand for files. -/
theorem fileKind?_eq_none {name : String} (h : fileKind? name = none) :
    name ∉ ["file", "folder"] := by
  simp only [fileKind?] at h
  split_ifs at h with hfile hfolder
  simp [hfile, hfolder]

/-- An entry of a list of files fails for its node, for a missing source, or
    for a value. -/
theorem fileEntry_fails {list : Element} (hlist : d.Contains list)
    (hname : list.name ∈ ["requiredInstallFiles", "files"]) (he : e ∈ list.children) :
    FailsOnly (Defect r d) (fileEntry e) := by
  have hc : d.Contains e := hlist.child he
  rw [fileEntry]
  cases hk : fileKind? e.name with
  | none => exact .error (.fileNode hlist hname he (fileKind?_eq_none hk))
  | some kind =>
      refine (requireAttribute_fails hc _).bind fun _ _ => ?_
      refine (readPriority_fails hc).bind fun _ _ => ?_
      refine (readTruth_fails hc (by decide)).bind fun _ _ => ?_
      exact (readTruth_fails hc (by decide)).bind fun _ _ => .ok _

theorem files_fails (he : d.Contains e) :
    FailsOnly (Defect r d) ((e.select "files/*").mapM fileEntry) := by
  refine .mapM fun c hc => ?_
  obtain ⟨list, hlist, hname, hc⟩ := (Element.mem_select_below "files" rfl (by decide)).mp hc
  exact fileEntry_fails (he.child hlist) (by rw [hname]; decide) hc

theorem flag_fails (he : d.Contains e) : FailsOnly (Defect r d) (flag e) :=
  (requireAttribute_fails he _).bind fun _ _ => .ok _

/-! ## Conditions -/

/-- A test of a file fails for its name or its state. -/
theorem filePredicate_fails (he : d.Contains e) : FailsOnly (Defect r d) (filePredicate e) := by
  refine (requireAttribute_fails he _).bind fun _ _ => ?_
  exact (requireState_fails he).bind fun _ _ => .ok _

/-- A test of a flag fails for its name or its value. -/
theorem flagPredicate_fails (he : d.Contains e) : FailsOnly (Defect r d) (flagPredicate e) := by
  refine (requireAttribute_fails he _).bind fun _ _ => ?_
  exact (requireAttribute_fails he _).bind fun _ _ => .ok _

/-- Groups stand in the document. -/
theorem contains_of_groupAt {level : Nat} (h : d.GroupAt level e) : d.Contains e := by
  induction h with
  | outer hlist _ hpattern he => exact (hlist.child hpattern).child he
  | inner _ he _ ih => exact ih.child he

/-- A member of a group fails as it should, if it does where it is a group
    itself. -/
theorem memberAt_fails {level : Nat} {group : Element} (hgroup : d.GroupAt level group)
    (he : e ∈ group.children)
    (h : e.name = "dependencies" → FailsOnly (Defect r d) (r.requirementAt (level + 1) e)) :
    FailsOnly (Defect r d) (r.memberAt (level + 1) e) := by
  have hc : d.Contains e := (contains_of_groupAt hgroup).child he
  rw [memberAt]
  cases hf : r.grammar.conditionForm? e.name with
  | none => exact .error (.conditionNode hgroup he hf)
  | some form =>
      cases form with
      | group =>
          have hname : e.name = "dependencies" := by
            rw [conditionForm?_eq] at hf
            grind
          exact (h hname).map _
      | file => exact (filePredicate_fails hc).map _
      | flag => exact (flagPredicate_fails hc).map _
      | gameVersion => exact (requireVersion_fails hc).map _
      | managerVersion => exact (requireVersion_fails hc).map _

/-- A group that is refused for its level stands at that level. -/
theorem requirementAt_fails {level : Nat} (h : d.GroupAt level e) :
    FailsOnly (Defect r d) (r.requirementAt level e) := by
  induction e generalizing level with
  | node e ih =>
      rw [requirementAt_eq]
      by_cases hl : r.options.maxConditionDepth < level
      · rw [if_pos hl]
        exact .error (.depth h hl)
      · rw [if_neg hl]
        refine (requireOperator_fails (contains_of_groupAt h)).bind fun _ _ => ?_
        have hmembers : FailsOnly (Defect r d) (e.children.mapM (r.memberAt (level + 1))) :=
          .mapM fun c hc => memberAt_fails h hc fun hn => ih c hc (h.inner hc hn)
        exact hmembers.bind fun _ _ => .ok _

/-- The condition of a pattern is an outermost group. -/
theorem patternCondition_fails {list condition : Element} (hlist : d.Contains list)
    (hname : list.name = "patterns") (he : e ∈ list.children)
    (hc : e.selectFirst? "dependencies" = some condition) :
    FailsOnly (Defect r d) (r.requirement condition) := by
  obtain ⟨hmem, hcname⟩ := Element.selectFirst?_eq_some rfl (by decide) hc
  exact requirementAt_fails (.outer hlist hname he hmem hcname)

/-! ## Plugins -/

/-- A pattern for a type fails for its type or in its condition. -/
theorem typePattern_fails {list : Element} (hlist : d.Contains list)
    (hname : list.name = "patterns") (he : e ∈ list.children) :
    FailsOnly (Defect r d) (r.typePattern e) := by
  have hc : d.Contains e := hlist.child he
  refine (requireChild_fails hc rfl (by decide)).bind fun type ht => ?_
  refine (requireType_fails (hc.of_selectFirst? (requireChild_eq_ok_iff.mp ht))).bind fun _ _ => ?_
  refine (requireChild_fails hc rfl (by decide)).bind fun condition hcond => ?_
  exact (patternCondition_fails hlist hname he (requireChild_eq_ok_iff.mp hcond)).bind
    fun _ _ => .ok _

/-- A plugin without a type rule misses a child, its descriptor or whatever
    would be in it. -/
theorem typeElement_fails (he : d.Contains e) : FailsOnly (Defect r d) (typeElement e) := by
  refine (requireChild_fails he rfl (by decide)).bind fun descriptor hd => ?_
  have hd := requireChild_eq_ok_iff.mp hd
  obtain ⟨-, hname⟩ := Element.selectFirst?_eq_some rfl (by decide) hd
  cases hhead : descriptor.children.head? with
  | some t => exact .ok t
  | none =>
      -- the error is worded with the name that was looked for
      show FailsOnly _ (.error (ConfigError.missingChild "typeDescriptor" "*"))
      rw [← hname]
      refine .error (.child (he.of_selectFirst? hd) fun c hc => ?_)
      rw [List.head?_eq_none_iff.mp hhead] at hc
      exact nomatch hc

/-- A type rule fails for its node, for a default that is missing, or in a
    pattern. -/
theorem typeRule_fails {descriptor : Element} (hd : d.Contains descriptor)
    (hname : descriptor.name = "typeDescriptor") (hhead : descriptor.children.head? = some e) :
    FailsOnly (Defect r d) (r.typeRule e) := by
  have hc : d.Contains e := hd.child (List.mem_of_head? hhead)
  rw [typeRule]
  cases hf : r.grammar.typeForm? e.name with
  | none => exact .error (.typeNode hd hname hhead hf)
  | some form =>
      cases form with
      | fixed => exact (requireType_fails hc).map _
      | computed =>
          refine (requireChild_fails hc rfl (by decide)).bind fun type ht => ?_
          have ht := hc.of_selectFirst? (requireChild_eq_ok_iff.mp ht)
          refine (requireType_fails ht).bind fun _ _ => ?_
          refine FailsOnly.bind (.mapM fun pattern hp => ?_) fun _ _ => .ok _
          obtain ⟨list, hlist, hname, hp⟩ :=
            (Element.mem_select_below "patterns" rfl (by decide)).mp hp
          exact typePattern_fails (hc.child hlist) hname hp

/-- An image of which no more than the path is kept fails without a path. -/
theorem imageOf?_fails (himages : r.images = Image.Loader.pathOnly) {e? : Option Element}
    (he : ∀ e ∈ e?, d.Contains e) : FailsOnly (Defect r d) (r.imageOf? e?) := by
  cases e? with
  | none => exact .ok none
  | some e =>
      refine FailsOnly.map ?_ _
      refine (requireAttribute_fails (he e rfl) _).bind fun path _ => ?_
      rw [himages]
      exact .ok (⟨path, none⟩ : Image)

theorem flagsOf_fails (he : d.Contains e) : FailsOnly (Defect r d) (r.flagsOf e) := by
  rw [flagsOf]
  split
  · exact .mapM fun c hc => flag_fails (he.of_mem_select hc)
  · exact .ok []

/-- A plugin fails where one of its parts does. -/
theorem plugin_fails (himages : r.images = Image.Loader.pathOnly) (he : d.Contains e) :
    FailsOnly (Defect r d) (r.plugin e) := by
  rw [plugin_eq]
  refine (requireAttribute_fails he _).bind fun _ _ => ?_
  refine (requireChild_fails he rfl (by decide)).bind fun _ _ => ?_
  refine (typeElement_fails he).bind fun t ht => ?_
  obtain ⟨descriptor, hd, hhead⟩ := typeElement_eq_ok_iff.mp ht
  obtain ⟨-, hname⟩ := Element.selectFirst?_eq_some rfl (by decide) hd
  refine (typeRule_fails (he.of_selectFirst? hd) hname hhead).bind fun _ _ => ?_
  have himage : ∀ i ∈ e.selectFirst? "image", d.Contains i := fun i hi => he.of_selectFirst? hi
  refine (imageOf?_fails himages himage).bind fun _ _ => ?_
  refine (files_fails he).bind fun _ _ => ?_
  exact (flagsOf_fails he).bind fun _ _ => .ok _

theorem group_fails (himages : r.images = Image.Loader.pathOnly) (he : d.Contains e) :
    FailsOnly (Defect r d) (r.group e) := by
  refine (requireAttribute_fails he _).bind fun _ _ => ?_
  refine (requireGroupType_fails he).bind fun _ _ => ?_
  refine FailsOnly.bind (.mapM fun plugin hp => ?_) fun _ _ => .ok _
  exact plugin_fails himages (he.of_mem_select hp)

/-! ## Sections -/

/-- A requirement of the package fails for its node, or for what it asks. -/
theorem packageRequirement_fails {list : Element} (hlist : list ∈ d.root.children)
    (hname : list.name = "moduleDependencies") (he : e ∈ list.children) :
    FailsOnly (Defect r d) (r.packageRequirement e) := by
  have hc : d.Contains e := (Element.Within.root.child hlist).child he
  rw [packageRequirement]
  cases hf : r.grammar.packageForm? e.name with
  | some form =>
      cases form with
      | file => exact (requireAttribute_fails hc _).bind fun _ _ => .ok _
      | gameVersion => exact (requireVersion_fails hc).map _
      | managerVersion => exact (requireVersion_fails hc).map _
  | none =>
      -- the host is asked before the node is an error
      cases hx : r.extension e with
      | some predicate => exact .ok predicate
      | none => exact .error (.packageNode hlist hname he hf hx)

/-- A pattern for files fails in its condition or in its files. -/
theorem conditionalPattern_fails {list : Element} (hlist : d.Contains list)
    (hname : list.name = "patterns") (he : e ∈ list.children) :
    FailsOnly (Defect r d) (r.conditionalPattern e) := by
  have hc : d.Contains e := hlist.child he
  refine (requireChild_fails hc rfl (by decide)).bind fun condition hcond => ?_
  refine (patternCondition_fails hlist hname he (requireChild_eq_ok_iff.mp hcond)).bind
    fun _ _ => ?_
  exact (files_fails hc).bind fun _ _ => .ok _

section

variable (hroot : d.root.answers "config" = true)
include hroot

/-- A package without a name misses the child that would have it. -/
theorem packageName_fails : FailsOnly (Defect r d) (packageName d) := by
  rw [packageName, selectFirst?_config hroot "moduleName" rfl]
  cases hc : d.root.selectFirst? "moduleName" with
  | some child => exact .ok _
  | none =>
      refine .error (.child .root fun c hmem ha => ?_)
      exact Element.selectFirst?_eq_none rfl (by decide) hc c hmem
        ((Element.answers_iff (by decide)).mp ha)

theorem packageImage_fails (himages : r.images = Image.Loader.pathOnly) :
    FailsOnly (Defect r d) (r.packageImage d) := by
  rw [packageImage, selectFirst?_config hroot "moduleImage" rfl]
  exact imageOf?_fails himages fun e he => Element.Within.root.of_selectFirst? he

theorem packageRequirements_fails : FailsOnly (Defect r d) (r.packageRequirements d) := by
  rw [packageRequirements, select_config hroot "moduleDependencies/*" rfl]
  refine FailsOnly.bind (.mapM fun e he => ?_) fun _ _ => .ok _
  obtain ⟨list, hlist, hname, he⟩ :=
    (Element.mem_select_below "moduleDependencies" rfl (by decide)).mp he
  exact packageRequirement_fails hlist hname he

theorem requiredFiles_fails : FailsOnly (Defect r d) (requiredFiles d) := by
  rw [requiredFiles, select_config hroot "requiredInstallFiles/*" rfl]
  refine .mapM fun e he => ?_
  obtain ⟨list, hlist, hname, he⟩ :=
    (Element.mem_select_below "requiredInstallFiles" rfl (by decide)).mp he
  exact fileEntry_fails (Element.Within.root.child hlist) (by rw [hname]; decide) he

theorem groups_fails (himages : r.images = Image.Loader.pathOnly) :
    FailsOnly (Defect r d) (r.groups d) := by
  rw [groups, select_config hroot "groups/*" rfl]
  exact .mapM fun e he => group_fails himages (Element.Within.root.of_mem_select he)

theorem conditionalFiles_fails : FailsOnly (Defect r d) (r.conditionalFiles d) := by
  rw [conditionalFiles, conditionalFilesPath_eq]
  by_cases hg : r.grammar = .v1
  · rw [if_pos hg]
    exact .ok []
  · rw [if_neg hg]
    refine .mapM fun e he => ?_
    -- the list of patterns is found two levels below the root
    rw [select_config hroot ("conditionalFileInstalls" ++ "/" ++ "patterns/*") rfl,
      Element.select_join] at he
    obtain ⟨installs, hinstalls, he⟩ := List.mem_flatMap.mp he
    obtain ⟨list, hlist, hname, he⟩ := (Element.mem_select_below "patterns" rfl (by decide)).mp he
    have hinstalls := Element.Within.root.of_mem_select hinstalls
    exact conditionalPattern_fails (hinstalls.child hlist) hname he

end

/-- **Every error names a defect**, whatever the grammar, the options and the
    host: what the error of a failed reading claims of the document is so. -/
theorem package_error_names_defect (r : Reader) {d : Document} (hroot : d.root.name = "config")
    (himages : r.images = Image.Loader.pathOnly) {err : ConfigError}
    (h : r.package d = .error err) : Defect r d err := by
  have hroot : d.root.answers "config" = true := (Element.answers_iff (by decide)).mpr hroot
  have hfails : FailsOnly (Defect r d) (r.package d) := by
    refine (packageName_fails hroot).bind fun _ _ => ?_
    refine (packageImage_fails hroot himages).bind fun _ _ => ?_
    refine (packageRequirements_fails hroot).bind fun _ _ => ?_
    refine (requiredFiles_fails hroot).bind fun _ _ => ?_
    refine (groups_fails hroot himages).bind fun _ _ => ?_
    exact (conditionalFiles_fails hroot).bind fun _ _ => .ok _
  exact hfails err h

/-- A package whose conditional files have a group inside a group. -/
def groupInGroup (inner : Element) : Document where
  root := { name := "config", children := [
    { name := "moduleName" },
    { name := "conditionalFileInstalls", children := [
      { name := "patterns", children := [
        { name := "pattern", children := [
          { name := "dependencies", attributes := [("operator", "And")],
            children := [inner] }] }] }] }] }

/-- An operator that is none is found in the inner group, and with room for one
    level only the group itself is too deep. -/
theorem package_error_names_defect_inside :
    Defect (.mk .v3 {} .declining .pathOnly)
      (groupInGroup { name := "dependencies", attributes := [("operator", "Xor")] })
      (.badValue .operator "Xor") ∧
    Defect (.mk .v3 { maxConditionDepth := 1 } .declining .pathOnly)
      (groupInGroup { name := "dependencies" }) (.conditionTooDeep 1) ∧
    Defect (.mk .v2 {} .declining .pathOnly)
      (groupInGroup { name := "gameDependency" }) (.unknownNode "gameDependency") :=
  ⟨package_error_names_defect _ rfl rfl rfl, package_error_names_defect _ rfl rfl rfl,
    package_error_names_defect _ rfl rfl rfl⟩

end Reader

end ModInstall
