import ModInstall.Package.Json
import ModInstall.Proofs.Condition.Json
import ModInstall.Proofs.Json.Text
import ModInstall.Proofs.Package.Parts

/-! # Packages in JSON read back

    Every record of a package is read back field by field.  Two things do not
    come back by themselves: the bytes of images, which are not written, and
    conditions that are not canonical.  A package free of both is read back as
    it is, in all the room that it needs and in no less.

    How much room a package needs is decided by its conditions alone, since
    everything else in it nests to a fixed depth. -/

namespace ModInstall

open Json (Decoder Reads Exact)

/-! ## Records -/

/-- An image of which only the path is known is read back. -/
theorem Image.reads {i : Image} (h : i.bytes = none) : Reads Image.decoder i.toJson i := by
  obtain ⟨path, bytes⟩ := i
  obtain rfl : bytes = none := h
  refine Reads.object rfl ?_
  refine (Reads.string path).field rfl ?_
  exact .done _

theorem Image.reads_option {i? : Option Image} (h : ∀ i ∈ i?, i.bytes = none) :
    Reads (Decoder.nullable Image.decoder) (Image.optionToJson i?) i? := by
  cases i? with
  | none => exact Reads.null _
  | some i => exact Reads.nullable (fun hn => nomatch hn) (Image.reads (h i rfl))

theorem PluginType.reads (t : PluginType) : Reads PluginType.decoder (.string t.name) t :=
  Reads.named (PluginType.ofName?_eq_some_iff.mpr rfl)

theorem FileEntry.reads (e : FileEntry) : Reads FileEntry.decoder e.toJson e := by
  refine Reads.object rfl ?_
  refine (Reads.string e.source).field rfl ?_
  refine (Reads.string e.destination).field rfl ?_
  refine (Reads.named (FileKind.ofName?_eq_some_iff.mpr rfl)).field rfl ?_
  refine (Reads.int32 (Text.int32OfInt?_toInt e.priority)).field rfl ?_
  refine (Reads.bool e.alwaysInstall).field rfl ?_
  refine (Reads.bool e.installIfUsable).field rfl ?_
  exact .done _

theorem ConditionFlag.reads (f : ConditionFlag) : Reads ConditionFlag.decoder f.toJson f := by
  refine Reads.object rfl ?_
  refine (Reads.string f.name).field rfl ?_
  refine (Reads.string f.value).field rfl ?_
  exact .done _

theorem TypePattern.reads {t : TypePattern} (h : t.condition.Canonical) :
    Reads TypePattern.decoder t.toJson t := by
  refine Reads.object rfl ?_
  refine (PluginType.reads t.type).field rfl ?_
  refine h.reads.field rfl ?_
  exact .done _

/-- A type rule is an object whose only key leads to its kind of rule. -/
theorem TypeRule.reads {rule : TypeRule} (h : ∀ t ∈ rule.patterns, t.condition.Canonical) :
    Reads TypeRule.decoder rule.toJson rule := by
  -- what the key leads to is read like any other value, one level down
  have hkey : ∀ {kind : String} {v : Json} {d : Decoder TypeRule}, Reads d v rule →
      (∀ room, TypeRule.decoder (room + 1) (.object [(kind, v)]) = d room v) →
        Reads TypeRule.decoder (.object [(kind, v)]) rule := by
    intro kind v d hd hstep room
    have hnesting : Json.nesting (.object [(kind, v)]) = v.nesting + 1 := by
      simp only [Json.nesting, Json.nestingEntries]
      omega
    cases room with
    | zero => exact (if_neg (by omega)).symm
    | succ room =>
        rw [hstep, hd room, hnesting]
        simp only [Nat.add_le_add_iff_right]
  cases rule with
  | fixed type =>
      refine hkey (d := fun room v => (PluginType.decoder room v).map .fixed) ?_ fun room => rfl
      exact fun room => congrArg _ (PluginType.reads type room)
  | computed default patterns =>
      refine hkey (@Reads.object _ _ _ ["default_type", "patterns"] _ rfl ?_) fun room => rfl
      refine (PluginType.reads default).field rfl ?_
      refine (Reads.list fun t ht => TypePattern.reads (h t ht)).field rfl ?_
      exact .done _

theorem ConditionalFiles.reads {c : ConditionalFiles} (h : c.condition.Canonical) :
    Reads ConditionalFiles.decoder c.toJson c := by
  refine Reads.object rfl ?_
  refine h.reads.field rfl ?_
  refine (Reads.list fun e _ => FileEntry.reads e).field rfl ?_
  exact .done _

/-- A plugin without image bytes, whose conditions are canonical. -/
structure Plugin.Canonical (p : Plugin) : Prop where
  image : ∀ i ∈ p.image, i.bytes = none
  conditions : ∀ t ∈ p.typeRule.patterns, t.condition.Canonical

/-- A plugin is read back when it is canonical. -/
theorem Plugin.Canonical.reads {p : Plugin} (h : p.Canonical) :
    Reads Plugin.decoder p.toJson p := by
  refine Reads.object rfl ?_
  refine (Reads.string p.name).field rfl ?_
  refine (Reads.string p.description).field rfl ?_
  refine (Image.reads_option h.image).fieldD rfl ?_
  refine (TypeRule.reads h.conditions).field rfl ?_
  refine (Reads.list fun e _ => FileEntry.reads e).field rfl ?_
  refine (Reads.list fun f _ => ConditionFlag.reads f).field rfl ?_
  exact .done _

theorem PluginGroup.reads {g : PluginGroup} (h : ∀ p ∈ g.plugins, p.Canonical) :
    Reads PluginGroup.decoder g.toJson g := by
  refine Reads.object rfl ?_
  refine (Reads.string g.name).field rfl ?_
  refine (Reads.named (GroupType.ofName?_eq_some_iff.mpr rfl)).field rfl ?_
  refine (Reads.list fun p hp => (h p hp).reads).field rfl ?_
  exact .done _

/-- A package without image bytes, whose conditions are canonical. -/
structure Package.Canonical (p : Package) : Prop where
  image : ∀ i ∈ p.image, i.bytes = none
  requirements : p.requirements.Canonical
  plugins : ∀ plugin ∈ p.plugins, plugin.Canonical
  conditionalFiles : ∀ c ∈ p.conditionalFiles, c.condition.Canonical

/-- A canonical package is read back as it is, in all the room it needs and in
    no less. -/
theorem Package.Canonical.reads {p : Package} (h : p.Canonical) :
    Reads Package.decoder p.toJson p := by
  have hgroups : ∀ g ∈ p.groups, ∀ plugin ∈ g.plugins, plugin.Canonical := fun g hg plugin hp =>
    h.plugins plugin (List.mem_flatMap.mpr ⟨g, hg, hp⟩)
  refine Reads.object rfl ?_
  refine (Reads.string p.version).field rfl ?_
  refine (Reads.string p.name).field rfl ?_
  refine (Image.reads_option h.image).fieldD rfl ?_
  refine h.requirements.reads.field rfl ?_
  refine (Reads.list fun e _ => FileEntry.reads e).field rfl ?_
  refine (Reads.list fun g hg => PluginGroup.reads (hgroups g hg)).field rfl ?_
  refine (Reads.list fun c hc => ConditionalFiles.reads (h.conditionalFiles c hc)).field rfl ?_
  exact .done _

/-! ## Texts -/

theorem Json.exact_ofList {α : Type} {encode : α → Json} (as : List α)
    (h : ∀ a ∈ as, Exact (encode a)) : Exact (Json.ofList encode as) := by
  refine .array fun v hv => ?_
  obtain ⟨a, ha, rfl⟩ := List.mem_map.mp hv
  exact h a ha

theorem Image.exact_optionToJson (i? : Option Image) : Exact (Image.optionToJson i?) := by
  cases i? with
  | none => exact .null
  | some i => exact .object (by simp [Exact.string])

/-- The one number in a package is a priority, and that has ten digits at
    most. -/
theorem FileEntry.exact_toJson (e : FileEntry) : Exact e.toJson := by
  have hpriority : Exact (.int e.priority.toInt) := by
    have hle := e.priority.le_toInt
    have hlt := e.priority.toInt_lt
    -- 32 bits make no more than ten digits
    have hsize : e.priority.toInt.natAbs < 10 ^ 10 := by omega
    have hlength := (Nat.length_toDigits_le_iff (by decide) (by decide)).mpr hsize
    exact .int (Nat.le_trans hlength (by decide))
  exact .object (by simp [Exact.string, Exact.bool, hpriority])

theorem ConditionFlag.exact_toJson (f : ConditionFlag) : Exact f.toJson :=
  .object (by simp [Exact.string])

theorem TypePattern.exact_toJson (t : TypePattern) : Exact t.toJson :=
  .object (by simp [Exact.string, t.condition.exact_toJson])

theorem TypeRule.exact_toJson (rule : TypeRule) : Exact rule.toJson := by
  cases rule with
  | fixed type => exact .object (by simp [Exact.string])
  | computed default patterns =>
      have hpatterns := Json.exact_ofList patterns fun t _ => t.exact_toJson
      have hinner : Exact (.object [("default_type", .string default.name),
          ("patterns", Json.ofList TypePattern.toJson patterns)]) :=
        .object (by simp [Exact.string, hpatterns])
      exact .object (by simp [hinner])

theorem ConditionalFiles.exact_toJson (c : ConditionalFiles) : Exact c.toJson := by
  have hfiles := Json.exact_ofList c.files fun e _ => e.exact_toJson
  exact .object (by simp [c.condition.exact_toJson, hfiles])

theorem Plugin.exact_toJson (p : Plugin) : Exact p.toJson := by
  have hfiles := Json.exact_ofList p.files fun e _ => e.exact_toJson
  have hflags := Json.exact_ofList p.flags fun f _ => f.exact_toJson
  exact .object (by
    simp [Exact.string, Image.exact_optionToJson, p.typeRule.exact_toJson, hfiles, hflags])

theorem PluginGroup.exact_toJson (g : PluginGroup) : Exact g.toJson := by
  have hplugins := Json.exact_ofList g.plugins fun p _ => p.exact_toJson
  exact .object (by simp [Exact.string, hplugins])

/-- A package is written without decimals or long numbers. -/
theorem Package.exact_toJson (p : Package) : Exact p.toJson := by
  have hfiles := Json.exact_ofList p.requiredFiles fun e _ => e.exact_toJson
  have hgroups := Json.exact_ofList p.groups fun g _ => g.exact_toJson
  have hconditional := Json.exact_ofList p.conditionalFiles fun c _ => c.exact_toJson
  exact .object (by
    simp [Exact.string, Image.exact_optionToJson, p.requirements.exact_toJson, hfiles, hgroups,
      hconditional])

/-- A canonical package is read back from its text exactly when the text nests
    no deeper than a reader of texts goes. -/
theorem Package.Canonical.ofText?_compact {p : Package} (h : p.Canonical) :
    Decoder.ofText? Package.decoder (Json.compact p.toJson)
      = if p.toJson.nesting ≤ Json.maxNesting then some p else none := by
  rw [Decoder.ofText?, Json.read?_compact p.exact_toJson]
  exact h.reads Json.maxNesting

/-! ## How deep packages nest -/

/-- A list takes one level more than its items. -/
theorem Json.nesting_ofList_le_iff {α : Type} (encode : α → Json) (as : List α) {n : Nat} :
    (Json.ofList encode as).nesting ≤ n + 1 ↔ ∀ a ∈ as, (encode a).nesting ≤ n := by
  rw [Json.ofList, Json.nesting, Nat.add_comm, Nat.add_le_add_iff_right,
    Json.nestingItems_le_iff, List.forall_mem_map]

theorem Image.nesting_optionToJson_le (i? : Option Image) :
    (Image.optionToJson i?).nesting ≤ 1 := by
  cases i? with
  | none => exact Nat.zero_le _
  | some i => exact Nat.le_refl _

/-- File entries are flat. -/
theorem FileEntry.nesting_ofList_le (es : List FileEntry) :
    (Json.ofList FileEntry.toJson es).nesting ≤ 2 :=
  (Json.nesting_ofList_le_iff _ _).mpr fun _ _ => Nat.le_refl _

theorem ConditionFlag.nesting_ofList_le (fs : List ConditionFlag) :
    (Json.ofList ConditionFlag.toJson fs).nesting ≤ 2 :=
  (Json.nesting_ofList_le_iff _ _).mpr fun _ _ => Nat.le_refl _

/-- A pattern for a type takes one level more than its condition. -/
theorem TypePattern.nesting_toJson (t : TypePattern) :
    t.toJson.nesting = t.condition.toJson.nesting + 1 := by
  simp only [toJson, Json.nesting, Json.nestingEntries]
  omega

/-- A type rule stands four levels above the conditions of its patterns. -/
theorem TypeRule.nesting_toJson_le_iff {rule : TypeRule} {n : Nat} :
    rule.toJson.nesting ≤ n + 4 ↔
      ∀ t ∈ rule.patterns, t.condition.toJson.nesting ≤ n := by
  cases rule with
  | fixed type => simp [toJson, patterns, Json.nesting, Json.nestingEntries]
  | computed default ts =>
      have hlist := Json.nesting_ofList_le_iff TypePattern.toJson ts (n := n + 1)
      simp only [TypePattern.nesting_toJson, Nat.add_le_add_iff_right] at hlist
      rw [patterns, ← hlist]
      simp only [toJson, Json.nesting, Json.nestingEntries]
      omega

/-- A plugin stands five levels above the conditions of its patterns, and all
    else in it fits into these levels. -/
theorem Plugin.nesting_toJson_le_iff {p : Plugin} {n : Nat} :
    p.toJson.nesting ≤ n + 5 ↔
      ∀ t ∈ p.typeRule.patterns, t.condition.toJson.nesting ≤ n := by
  have himage := Image.nesting_optionToJson_le p.image
  have hfiles := FileEntry.nesting_ofList_le p.files
  have hflags := ConditionFlag.nesting_ofList_le p.flags
  rw [← TypeRule.nesting_toJson_le_iff]
  simp only [toJson, Json.nesting, Json.nestingEntries]
  omega

/-- A group stands seven levels above the conditions in its plugins. -/
theorem PluginGroup.nesting_toJson_le_iff {g : PluginGroup} {n : Nat} :
    g.toJson.nesting ≤ n + 7 ↔
      ∀ p ∈ g.plugins, ∀ t ∈ p.typeRule.patterns, t.condition.toJson.nesting ≤ n := by
  have hlist := Json.nesting_ofList_le_iff Plugin.toJson g.plugins (n := n + 5)
  simp only [Plugin.nesting_toJson_le_iff] at hlist
  rw [← hlist]
  simp only [toJson, Json.nesting, Json.nestingEntries]
  omega

/-- A pattern for files stands one level above its condition, and its files
    need three levels at most. -/
theorem ConditionalFiles.nesting_toJson_le_iff {c : ConditionalFiles} {n : Nat} :
    c.toJson.nesting ≤ n + 3 ↔ c.condition.toJson.nesting ≤ n + 2 := by
  have hfiles := FileEntry.nesting_ofList_le c.files
  simp only [toJson, Json.nesting, Json.nestingEntries]
  omega

/-- How deep the text of a package nests is up to its conditions: those of
    type patterns stand below nine levels, those of conditional files below
    three, and the requirements of the package below one. -/
theorem Package.nesting_toJson_le_iff {p : Package} {n : Nat} :
    p.toJson.nesting ≤ n + 9 ↔
      p.requirements.toJson.nesting ≤ n + 8 ∧
      (∀ t ∈ p.typePatterns, t.condition.toJson.nesting ≤ n) ∧
      (∀ c ∈ p.conditionalFiles, c.condition.toJson.nesting ≤ n + 6) := by
  have himage := Image.nesting_optionToJson_le p.image
  have hfiles := FileEntry.nesting_ofList_le p.requiredFiles
  have hgroups := Json.nesting_ofList_le_iff PluginGroup.toJson p.groups (n := n + 7)
  have hconditional := Json.nesting_ofList_le_iff ConditionalFiles.toJson p.conditionalFiles
    (n := n + 7)
  simp only [PluginGroup.nesting_toJson_le_iff] at hgroups
  simp only [ConditionalFiles.nesting_toJson_le_iff (n := n + 4)] at hconditional
  have hpatterns : (∀ t ∈ p.typePatterns, t.condition.toJson.nesting ≤ n) ↔
      ∀ g ∈ p.groups, ∀ plugin ∈ g.plugins, ∀ t ∈ plugin.typeRule.patterns,
        t.condition.toJson.nesting ≤ n := by
    simp only [typePatterns, plugins, List.mem_flatMap]
    constructor
    · intro h g hg plugin hp t ht
      exact h t ⟨plugin, ⟨g, hg, hp⟩, ht⟩
    · rintro h t ⟨plugin, ⟨g, hg, hp⟩, ht⟩
      exact h g hg plugin hp t ht
  rw [hpatterns, ← hgroups, ← hconditional]
  simp only [toJson, Json.nesting, Json.nestingEntries]
  omega

end ModInstall
