import ModInstall.Proofs.Package.Comparison

/-! # Newer grammars extend older ones

    A grammar adds forms to the one it extends and takes none away, so a newer
    reader should read what the older one does.  It does, but for two reasons
    to differ.  The first is a node that only the newer grammar knows: the
    older reader stops there, which `SameBut` leaves open and nothing else.
    The second is what the older grammar never looks at, the flags of plugins
    and the patterns of conditional files: there the newer reader may find a
    fault of its own, and `flag` and `conditionalFiles` say which. -/

namespace ModInstall

open Markup (Element Document)

/-! ## Tables -/

namespace Grammar

variable {kind : String}

/-- The kinds that version 3 knows in conditions and version 2 does not. -/
def newInV3 : List String := ["gameDependency", "fommDependency"]

/-- The last grammar knows the conditions of the one before it, and some new
    kinds. -/
theorem conditionForm?_v3 :
    Grammar.v3.conditionForm? kind = Grammar.v2.conditionForm? kind ∨
      kind ∈ newInV3 ∧ Grammar.v2.conditionForm? kind = none := by
  simp only [conditionForm?_eq, newInV3]
  grind

/-- The last grammar knows the requirements of the one before it, and one new
    kind. -/
theorem packageForm?_v3 :
    Grammar.v3.packageForm? kind = Grammar.v2.packageForm? kind ∨
      kind = "gameDependency" ∧ Grammar.v2.packageForm? kind = none := by
  simp only [packageForm?_eq]
  grind

/-- The last grammar knows the type rules of the one before it. -/
theorem typeForm?_v3 : Grammar.v3.typeForm? kind = Grammar.v2.typeForm? kind := by
  simp only [typeForm?_eq]
  grind

/-- The second grammar knows the requirements of the first one, and two new
    kinds. -/
theorem packageForm?_v2 :
    Grammar.v2.packageForm? kind = Grammar.v1.packageForm? kind ∨
      (kind = "falloutDependency" ∨ kind = "fommDependency") ∧
        Grammar.v1.packageForm? kind = none := by
  simp only [packageForm?_eq]
  grind

end Grammar

/-! ## Readings that differ on some kinds only -/

/-- Two readings are the same, unless the first stops at a node of one of some
    kinds. -/
def SameBut {α : Type} (kinds : List String) (x y : Except ConfigError α) : Prop :=
  x = y ∨ ∃ kind ∈ kinds, x = .error (.unknownNode kind)

namespace Reader

open Grammar

variable {r : Reader} {d : Document} {e : Element}

/-- The reader with another grammar. -/
def withGrammar (r : Reader) (g : Grammar) : Reader :=
  { r with grammar := g }

@[simp] theorem withGrammar_grammar (g : Grammar) : (r.withGrammar g).grammar = g := rfl

@[simp] theorem withGrammar_extension (g : Grammar) :
    (r.withGrammar g).extension = r.extension := rfl

/-! ## From version 2 to version 3 -/

/-- The reader has stopped at a node that is new in version 3. -/
def StoppedAtNew (fault : ConfigError) : Prop :=
  ∃ kind ∈ newInV3, fault = .unknownNode kind

/-- The last two grammars read alike, unless the older one stops at a new
    kind. -/
theorem v3_agrees (r : Reader) :
    AgreesBut StoppedAtNew id (r.withGrammar .v2) (r.withGrammar .v3) where
  conditionForm kind := by
    rcases @conditionForm?_v3 kind with hsame | ⟨hnew, hnone⟩
    · exact Or.inl hsame.symm
    · exact Or.inr ⟨hnone, kind, hnew, rfl⟩
  depth := Or.inl rfl
  typeForm := funext fun _ => typeForm?_v3.symm
  readsFlags := rfl
  conditionalFilesPath := rfl
  images := rfl
  describe _ := rfl

/-- An extension that leaves `gameDependency` alone leaves the requirements of
    the package alike. -/
theorem packageRequirement_v3 (hx : ∀ n, n.name = "gameDependency" → r.extension n = none)
    (n : Element) : SameUnless StoppedAtNew ((r.withGrammar .v2).packageRequirement n)
      ((r.withGrammar .v3).packageRequirement n) := by
  simp only [packageRequirement, withGrammar_grammar, withGrammar_extension]
  rcases @packageForm?_v3 n.name with hsame | ⟨hnew, hnone⟩
  · rw [hsame]
    exact .refl _
  · rw [hnone, hx n hnew, hnew]
    exact .error ⟨"gameDependency", by decide, rfl⟩ _

/-- The last grammar reads what the one before it reads, to a package of its
    own version. -/
theorem package_v3 (hx : ∀ n, n.name = "gameDependency" → r.extension n = none) :
    SameBut newInV3 (((r.withGrammar .v2).package d).map ({ · with version := "3.0" }))
      ((r.withGrammar .v3).package d) := by
  have hsame := (v3_agrees r).package (packageRequirement_v3 hx) d
  simp only [Package.mapDescriptions_id] at hsame
  rcases hsame with hsame | ⟨_, hstop, kind, hk, rfl⟩
  · exact Or.inl hsame
  · exact Or.inr ⟨kind, hk, hstop⟩

/-! ## From version 1 to version 2 -/

/-- What version 1 takes for a type rule, version 2 takes for the same. -/
theorem typeRule_v2 {rule : TypeRule} (h : (r.withGrammar .v1).typeRule e = .ok rule) :
    (r.withGrammar .v2).typeRule e = .ok rule := by
  simp only [typeRule, withGrammar_grammar, typeForm?_eq] at h ⊢
  by_cases hn : e.name = "type"
  · simpa only [if_pos hn] using h
  · -- version 1 knows no other type rule
    simp [hn] at h

/-- A requirement of the package that the first grammar reads is read alike by
    the second. -/
theorem packageRequirement_v2
    (hx : ∀ n, n.name = "falloutDependency" ∨ n.name = "fommDependency" → r.extension n = none)
    {q : Predicate} (h : (r.withGrammar .v1).packageRequirement e = .ok q) :
    (r.withGrammar .v2).packageRequirement e = .ok q := by
  simp only [packageRequirement, withGrammar_grammar, withGrammar_extension] at h ⊢
  rcases @packageForm?_v2 e.name with hsame | ⟨hnew, hnone⟩
  · rw [hsame]
    exact h
  · -- the extension has declined such a node, so version 1 has not read it
    rw [hnone, hx e hnew] at h
    exact nomatch h

/-- A flag lacks its name: the fault that version 2 can find in a plugin and
    version 1 does not look for. -/
def FlagFault (plugin : Element) (fault : ConfigError) : Prop :=
  ∃ c ∈ plugin.select "conditionFlags/*",
    c.attribute? "name" = none ∧ fault = .missingAttribute c.name "name"

/-- Flags are read, or one of them is at fault. -/
theorem flags_ok_or_fault (e : Element) :
    (∃ flags, (e.select "conditionFlags/*").mapM flag = .ok flags) ∨
      ∃ fault, (e.select "conditionFlags/*").mapM flag = .error fault ∧ FlagFault e fault := by
  have hflag : ∀ c ∈ e.select "conditionFlags/*",
      (∃ f, flag c = .ok f ∧ True) ∨ ∃ fault, flag c = .error fault ∧ FlagFault e fault := by
    intro c hc
    cases hn : c.attribute? "name" with
    | none => exact Or.inr ⟨_, by rw [flag, requireAttribute, hn]; rfl, c, hc, hn, rfl⟩
    | some name => exact Or.inl ⟨_, by rw [flag, requireAttribute, hn]; rfl, trivial⟩
  rcases mapM_ok_or_fails hflag with ⟨flags, hflags, -⟩ | hfault
  · exact Or.inl ⟨flags, hflags⟩
  · exact Or.inr hfault

end Reader

/-- A plugin without its flags. -/
def Plugin.unflagged (p : Plugin) : Plugin :=
  { p with flags := [] }

/-- A group whose plugins have lost their flags. -/
def PluginGroup.unflagged (g : PluginGroup) : PluginGroup :=
  { g with plugins := g.plugins.map Plugin.unflagged }

namespace Reader

open Grammar

variable {r : Reader} {d : Document} {e : Element}

/-- Version 2 reads a plugin as version 1 does, and its flags. -/
theorem plugin_v2 {p : Plugin} (h : (r.withGrammar .v1).plugin e = .ok p) :
    (r.withGrammar .v2).plugin e
      = ((e.select "conditionFlags/*").mapM flag).map fun flags => { p with flags } := by
  obtain ⟨hname, ⟨c, hc, hdesc⟩, ⟨t, ht, hrule⟩, himage, hfiles, -⟩ := plugin_eq_ok_iff.mp h
  have himage' : (r.withGrammar .v2).imageOf? (e.selectFirst? "image") = .ok p.image := himage
  have hflags : (r.withGrammar .v2).flagsOf e = (e.select "conditionFlags/*").mapM flag := rfl
  rw [plugin_eq, requireAttribute_eq_ok_iff.mpr hname, requireChild_eq_ok_iff.mpr hc, ht]
  simp only [bind, Except.bind, typeRule_v2 hrule, himage', hfiles, hflags]
  cases (e.select "conditionFlags/*").mapM flag with
  | error e => rfl
  | ok flags =>
      show Except.ok _ = Except.ok _
      rw [hdesc]
      rfl

/-- A list that both versions read is read to the same, up to what a view
    forgets. -/
theorem map_eq_of_forall₂ {α β γ : Type} {f : α → Except ConfigError β} {view : β → γ}
    {as : List α} {bs cs : List β} (hb : as.mapM f = .ok bs)
    (hc : List.Forall₂ (fun a c => (f a).map view = .ok (view c)) as cs) :
    cs.map view = bs.map view := by
  replace hb := mapM_eq_ok_iff.mp hb
  induction hc generalizing bs with
  | nil =>
      cases hb
      rfl
  | cons hac _ ih =>
      cases hb with
      | cons hab hbs =>
          rw [hab] at hac
          rw [List.map_cons, List.map_cons, ih hbs, Except.ok.inj hac]

/-- A group that the first grammar reads is read by the second, unless a flag
    in it is at fault. -/
theorem group_v2 {g : PluginGroup} (h : (r.withGrammar .v1).group e = .ok g) :
    (∃ g', (r.withGrammar .v2).group e = .ok g' ∧ g'.unflagged = g.unflagged) ∨
      ∃ fault, (r.withGrammar .v2).group e = .error fault ∧
        ∃ plugin ∈ e.select "plugins/*", FlagFault plugin fault := by
  obtain ⟨hname, htype, hplugins⟩ := group_eq_ok_iff.mp h
  have hplugin : ∀ p ∈ e.select "plugins/*",
      (∃ q, (r.withGrammar .v2).plugin p = .ok q ∧
        ((r.withGrammar .v1).plugin p).map Plugin.unflagged = .ok q.unflagged) ∨
      ∃ fault, (r.withGrammar .v2).plugin p = .error fault ∧
        ∃ plugin ∈ e.select "plugins/*", FlagFault plugin fault := by
    intro p hp
    obtain ⟨q, -, hq⟩ := exists_mem_right_of_forall₂ (mapM_eq_ok_iff.mp hplugins) hp
    rcases flags_ok_or_fault p with ⟨flags, hflags⟩ | ⟨fault, hfault, hwhere⟩
    · exact Or.inl ⟨{ q with flags }, by rw [plugin_v2 hq, hflags]; rfl, by rw [hq]; rfl⟩
    · exact Or.inr ⟨fault, by rw [plugin_v2 hq, hfault]; rfl, p, hp, hwhere⟩
  rcases mapM_ok_or_fails hplugin with ⟨plugins, hps, hall⟩ | ⟨fault, hfault, hwhere⟩
  · refine Or.inl ⟨{ g with plugins }, group_eq_ok_iff.mpr ⟨hname, htype, hps⟩, ?_⟩
    rw [PluginGroup.unflagged, PluginGroup.unflagged, map_eq_of_forall₂ hplugins hall]
  · refine Or.inr ⟨fault, ?_, hwhere⟩
    rw [group, requireAttribute_eq_ok_iff.mpr hname, htype]
    simp only [bind, Except.bind, hfault]

/-- Groups that the first grammar reads are read by the second, unless a flag
    in one of them is at fault. -/
theorem groups_v2 {gs : List PluginGroup} (h : (r.withGrammar .v1).groups d = .ok gs) :
    (∃ gs', (r.withGrammar .v2).groups d = .ok gs' ∧
      gs'.map PluginGroup.unflagged = gs.map PluginGroup.unflagged) ∨
      ∃ fault, (r.withGrammar .v2).groups d = .error fault ∧
        ∃ group ∈ d.select "/config/groups/*", ∃ plugin ∈ group.select "plugins/*",
          FlagFault plugin fault := by
  have hgroup : ∀ ge ∈ d.select "/config/groups/*",
      (∃ g, (r.withGrammar .v2).group ge = .ok g ∧
        ((r.withGrammar .v1).group ge).map PluginGroup.unflagged = .ok g.unflagged) ∨
      ∃ fault, (r.withGrammar .v2).group ge = .error fault ∧
        ∃ group ∈ d.select "/config/groups/*", ∃ plugin ∈ group.select "plugins/*",
          FlagFault plugin fault := by
    intro ge hge
    obtain ⟨g, -, hg⟩ := exists_mem_right_of_forall₂ (mapM_eq_ok_iff.mp h) hge
    rcases group_v2 hg with ⟨g', hg', hsame⟩ | ⟨fault, hfault, hwhere⟩
    · exact Or.inl ⟨g', hg', by rw [hg, hsame]; rfl⟩
    · exact Or.inr ⟨fault, hfault, ge, hge, hwhere⟩
  rcases mapM_ok_or_fails hgroup with ⟨gs', hgs, hall⟩ | hfault
  · exact Or.inl ⟨gs', hgs, map_eq_of_forall₂ h hall⟩
  · exact Or.inr hfault

/-- What version 1 reads, version 2 reads up to flags and conditional files,
    unless one of these is at fault. -/
theorem package_v2
    (hx : ∀ n, n.name = "falloutDependency" ∨ n.name = "fommDependency" → r.extension n = none)
    {p : Package} (h : (r.withGrammar .v1).package d = .ok p) :
    (∃ groups conditionalFiles,
      (r.withGrammar .v2).package d = .ok { p with version := "2.0", groups, conditionalFiles } ∧
      groups.map PluginGroup.unflagged = p.groups.map PluginGroup.unflagged) ∨
    (∃ fault, (r.withGrammar .v2).package d = .error fault ∧
      ∃ group ∈ d.select "/config/groups/*", ∃ plugin ∈ group.select "plugins/*",
        FlagFault plugin fault) ∨
    ∃ fault, (r.withGrammar .v2).package d = .error fault ∧
      (r.withGrammar .v2).conditionalFiles d = .error fault := by
  obtain ⟨-, hname, himage, hreq, hfiles, hgroups, -⟩ := package_eq_ok_iff.mp h
  have hreq' : (r.withGrammar .v2).packageRequirements d = .ok p.requirements := by
    obtain ⟨ps, hps, hq⟩ := bind_eq_ok_iff.mp hreq
    refine bind_eq_ok_iff.mpr ⟨ps, mapM_eq_ok_iff.mpr ?_, hq⟩
    exact (mapM_eq_ok_iff.mp hps).imp fun _ _ hp => packageRequirement_v2 hx hp
  have himage' : (r.withGrammar .v2).packageImage d = .ok p.image := himage
  -- all that comes before the groups is read alike
  rw [package, hname, himage', hreq', hfiles]
  rcases groups_v2 hgroups with ⟨gs, hgs, hsame⟩ | ⟨fault, hfault, hwhere⟩
  · cases hc : (r.withGrammar .v2).conditionalFiles d with
    | ok cs => exact Or.inl ⟨gs, cs, by rw [hgs]; rfl, hsame⟩
    | error fault => exact Or.inr (Or.inr ⟨fault, by rw [hgs]; rfl, rfl⟩)
  · exact Or.inr (Or.inl ⟨fault, by rw [hfault]; rfl, hwhere⟩)

/-! ## The two steps together -/

/-- **Newer grammars extend older ones.**  What version 2 reads, version 3
    reads to the same package, and it finds the same faults, but for nodes of
    the two kinds that are new in it.  What version 1 reads, version 2 reads to
    the same package up to the flags of plugins and the conditional files,
    which are new in it; if it fails, a flag lacks its name, or the fault is
    the one in the patterns of conditional files.  In both steps the extension
    must not have taken the nodes that the newer grammar knows at package
    level. -/
theorem package_conservative (r : Reader) (d : Document) :
    ((∀ n, n.name = "gameDependency" → r.extension n = none) →
      (∀ p, (r.withGrammar .v2).package d = .ok p →
        (r.withGrammar .v3).package d = .ok { p with version := "3.0" }) ∧
      (∀ fault, (r.withGrammar .v2).package d = .error fault →
        fault ≠ .unknownNode "gameDependency" → fault ≠ .unknownNode "fommDependency" →
        (r.withGrammar .v3).package d = .error fault)) ∧
    ((∀ n, n.name = "falloutDependency" ∨ n.name = "fommDependency" → r.extension n = none) →
      ∀ p, (r.withGrammar .v1).package d = .ok p →
        (∃ groups conditionalFiles,
          (r.withGrammar .v2).package d
            = .ok { p with version := "2.0", groups, conditionalFiles } ∧
          groups.map PluginGroup.unflagged = p.groups.map PluginGroup.unflagged) ∨
        (∃ fault, (r.withGrammar .v2).package d = .error fault ∧
          ∃ group ∈ d.select "/config/groups/*", ∃ plugin ∈ group.select "plugins/*",
            FlagFault plugin fault) ∨
        ∃ fault, (r.withGrammar .v2).package d = .error fault ∧
          (r.withGrammar .v2).conditionalFiles d = .error fault) := by
  refine ⟨fun hx => ?_, fun hx p hp => package_v2 hx hp⟩
  rcases package_v3 (d := d) hx with hsame | ⟨kind, hk, hstop⟩
  · refine ⟨fun p hp => ?_, fun fault hf _ _ => ?_⟩
    · rw [← hsame, hp]
      rfl
    · rw [← hsame, hf]
      rfl
  · -- version 2 has stopped at a node that is new in version 3
    cases hv : (r.withGrammar .v2).package d with
    | ok p =>
        rw [hv] at hstop
        exact nomatch hstop
    | error fault =>
        rw [hv] at hstop
        obtain rfl := Except.error.inj hstop
        refine ⟨fun p hp => (nomatch hp), fun fault hf hgame hfomm => ?_⟩
        obtain rfl := Except.error.inj hf
        rcases List.mem_cons.mp hk with rfl | hk
        · exact absurd rfl hgame
        · obtain rfl := List.mem_singleton.mp hk
          exact absurd rfl hfomm

/-- A document with one plugin that sets one flag, whose attributes are
    given. -/
def oneFlag (attributes : List (String × String)) : Document where
  root := {
    name := "config"
    children := [
      { name := "moduleName", text := "M" },
      { name := "groups", children := [
        { name := "group", attributes := [("name", "G"), ("type", "SelectAny")], children := [
          { name := "plugins", children := [
            { name := "plugin", attributes := [("name", "P")], children := [
              { name := "description" },
              { name := "conditionFlags", children := [
                { name := "flag", attributes, innerXml := some "On" }] },
              { name := "typeDescriptor", children := [
                { name := "type", attributes := [("name", "Optional")] }] }] }] }] }] }] }

/-- The package in such a document, with the flags that were read. -/
def onePlugin (version : String) (flags : List ConditionFlag) : Package where
  version
  name         := "M"
  requirements := ⟨.all, []⟩
  groups       := [{
    name    := "G"
    type    := .any
    plugins := [{ name := "P", description := "", typeRule := .fixed .optional, flags }] }]

/-- A flag with a name is read from version 2 on; one without is a fault from
    version 2 on, and version 1 passes over it. -/
theorem package_conservative_oneFlag :
    (Reader.mk .v3 {} .declining .pathOnly).package (oneFlag [("name", "F")])
      = .ok (onePlugin "3.0" [⟨"F", "On"⟩]) ∧
    (Reader.mk .v3 {} .declining .pathOnly).package (oneFlag [])
      = .error (.missingAttribute "flag" "name") ∧
    (Reader.mk .v1 {} .declining .pathOnly).package (oneFlag []) = .ok (onePlugin "1.0" []) ∧
    ∃ group ∈ (oneFlag []).select "/config/groups/*", ∃ plugin ∈ group.select "plugins/*",
      FlagFault plugin (.missingAttribute "flag" "name") := by
  have hread : (Reader.mk .v2 {} .declining .pathOnly).package (oneFlag [("name", "F")])
      = .ok (onePlugin "2.0" [⟨"F", "On"⟩]) := by
    rfl
  have hfault : (Reader.mk .v2 {} .declining .pathOnly).package (oneFlag [])
      = .error (.missingAttribute "flag" "name") := by
    rfl
  have hpassed : (Reader.mk .v1 {} .declining .pathOnly).package (oneFlag [])
      = .ok (onePlugin "1.0" []) := by
    rfl
  have hnamed := package_conservative (Reader.mk .v1 {} .declining .pathOnly)
    (oneFlag [("name", "F")])
  have hnameless := package_conservative (Reader.mk .v1 {} .declining .pathOnly) (oneFlag [])
  refine ⟨(hnamed.1 fun _ _ => rfl).1 _ hread, ?_, hpassed, ?_⟩
  · exact (hnameless.1 fun _ _ => rfl).2 _ hfault (by decide) (by decide)
  · rcases hnameless.2 (fun _ _ => rfl) _ hpassed with
      ⟨_, _, hok, -⟩ | ⟨fault, herror, hwhere⟩ | ⟨_, -, hfiles⟩
    · cases hfault.symm.trans hok
    · obtain rfl := Except.error.inj (hfault.symm.trans herror)
      exact hwhere
    · cases hfiles

end Reader

end ModInstall
