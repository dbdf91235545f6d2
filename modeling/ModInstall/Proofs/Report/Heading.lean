import Mathlib.Data.List.Basic
import ModInstall.Proofs.Report.Walk
import ModInstall.Report.Text

/-! # Headings in a report

    The walk forgets where a group ends: it leaves one list of plugins, each
    with the name of its group, and the text of a report finds the groups
    again by comparing names.  `sections` keeps the groups apart, and
    `groupedLines` is the text with a heading for each of them.  What is
    printed lacks a heading wherever a group has the name of the one before
    it, the first one being compared with the empty name (`headedLines`).  A
    heading is never empty, so nothing makes up for one that is missing: the
    two texts are the same only if no such names meet. -/

namespace ModInstall

/-- The groups that have plugins. -/
def Package.filledGroups (package : Package) : List PluginGroup :=
  package.groups.filter (!·.plugins.isEmpty)

namespace Report

variable {selected : List String}

/-- The plugins of each group as the walk finds them, under the name of the
    group. -/
def sections (selected : List String) : InstallState → List PluginGroup →
    List (String × List PluginReport)
  | _, []      => []
  | s, g :: gs =>
      let (reports, last) := walk selected s (g.plugins.map fun p => (g.name, p))
      (g.name, reports) :: sections selected last gs

/-- Lines as they are printed. -/
def printed (lines : List String) : String :=
  String.join (lines.map (· ++ "\n"))

/-- The lines on some groups, each under its own heading. -/
def groupedLines (groups : List (String × List PluginReport)) : List String :=
  groups.flatMap fun (name, reports) => heading name ++ reports.map pluginLine

/-- The lines on some groups that follow one of the name `previous`, where a
    group is put under the heading of another one of the same name. -/
def headedLines (previous : String) : List (String × List PluginReport) → List String
  | []                      => []
  | (name, reports) :: rest =>
      (if name = previous then [] else heading name) ++ reports.map pluginLine
        ++ headedLines name rest

/-! ## The walk, group by group -/

/-- A walk goes on from the state in which its first part ends. -/
theorem walk_append (s : InstallState) (es fs : List (String × Plugin)) :
    walk selected s (es ++ fs)
      = ((walk selected s es).1 ++ (walk selected (walk selected s es).2 fs).1,
          (walk selected (walk selected s es).2 fs).2) := by
  induction es generalizing s with
  | nil => rfl
  | cons e es ih =>
      obtain ⟨g, p⟩ := e
      rw [List.cons_append, walk, ih]
      rfl

/-- Each report is under the name of its group. -/
theorem walk_groups (s : InstallState) (es : List (String × Plugin)) :
    (walk selected s es).1.map (·.group) = es.map Prod.fst := by
  induction es generalizing s with
  | nil => rfl
  | cons e es ih => exact congrArg (e.1 :: ·) (ih _)

/-- The walk goes through one group after the other. -/
theorem walk_entries (s : InstallState) (groups : List PluginGroup) :
    (walk selected s (entries groups)).1 = (sections selected s groups).flatMap Prod.snd := by
  induction groups generalizing s with
  | nil => rfl
  | cons g groups ih =>
      show (walk selected s (g.plugins.map (fun p => (g.name, p)) ++ entries groups)).1 = _
      rw [walk_append, ih]
      rfl

theorem map_fst_sections (s : InstallState) (groups : List PluginGroup) :
    (sections selected s groups).map Prod.fst = groups.map (·.name) := by
  induction groups generalizing s with
  | nil => rfl
  | cons g groups ih => exact congrArg (g.name :: ·) (ih _)

/-- Groups without plugins leave no trace. -/
theorem entries_filledGroups (package : Package) :
    entries package.filledGroups = entries package.groups := by
  rw [Package.filledGroups]
  induction package.groups with
  | nil => rfl
  | cons g groups ih =>
      rw [List.filter_cons]
      split
      · exact congrArg (_ ++ ·) ih
      · next hg =>
          have hempty : g.plugins = [] := by simpa using hg
          rw [ih, entries, entries, List.flatMap_cons, hempty]
          rfl

/-- Every section of a group with plugins has an entry, and all of its entries
    are under the name of the group. -/
theorem of_mem_sections {groups : List PluginGroup} (h : ∀ g ∈ groups, g.plugins ≠ [])
    (s : InstallState) :
    ∀ e ∈ sections selected s groups, e.2 ≠ [] ∧ ∀ r ∈ e.2, r.group = e.1 := by
  induction groups generalizing s with
  | nil => exact fun _ he => nomatch he
  | cons g groups ih =>
      obtain ⟨hg, hgroups⟩ := List.forall_mem_cons.mp h
      refine List.forall_mem_cons.mpr ⟨⟨?_, ?_⟩, ih hgroups _⟩
      · intro hnil
        have hlength : (walk selected s (g.plugins.map fun p => (g.name, p))).1.length
            = g.plugins.length :=
          (walk_length s _).trans (List.length_map _)
        exact hg (List.length_eq_zero_iff.mp (hlength.symm.trans (congrArg List.length hnil)))
      · intro r hr
        have hname := List.mem_map_of_mem (f := PluginReport.group) hr
        rw [walk_groups, List.map_map] at hname
        obtain ⟨p, -, hp⟩ := List.mem_map.mp hname
        exact hp.symm

/-! ## What is printed -/

/-- Plugins of the group before them get no heading. -/
theorem pluginLines_append {name : String} {reports : List PluginReport}
    (h : ∀ r ∈ reports, r.group = name) (rest : List PluginReport) :
    pluginLines name (reports ++ rest) = reports.map pluginLine ++ pluginLines name rest := by
  induction reports with
  | nil => rfl
  | cons r reports ih =>
      obtain ⟨hr, hreports⟩ := List.forall_mem_cons.mp h
      rw [List.cons_append, pluginLines, if_pos hr, hr, ih hreports]
      rfl

/-- The names that are compared are those of the groups. -/
theorem pluginLines_sections {groups : List (String × List PluginReport)}
    (h : ∀ e ∈ groups, e.2 ≠ [] ∧ ∀ r ∈ e.2, r.group = e.1) (previous : String) :
    pluginLines previous (groups.flatMap Prod.snd) = headedLines previous groups := by
  induction groups generalizing previous with
  | nil => rfl
  | cons e groups ih =>
      obtain ⟨name, reports⟩ := e
      obtain ⟨⟨hne, hname⟩, hgroups⟩ := List.forall_mem_cons.mp h
      cases reports with
      | nil => exact absurd rfl hne
      | cons r reports =>
          obtain ⟨hr, hreports⟩ := List.forall_mem_cons.mp hname
          -- only the first plugin of a group is compared with another name
          have hr : r.group = name := hr
          rw [List.flatMap_cons, List.cons_append, pluginLines, hr,
            pluginLines_append hreports, ih hgroups, headedLines]
          simp only [List.map_cons, List.cons_append, List.append_assoc]

theorem printed_append (ls ms : List String) : printed (ls ++ ms) = printed ls ++ printed ms := by
  rw [printed, List.map_append, String.join_append]
  rfl

/-- A heading is never empty. -/
theorem length_heading_pos (name : String) : 0 < (printed (heading name)).length := by
  have hnewline : "\n".length = 1 := rfl
  simp only [printed, heading, List.map_cons, List.map_nil, String.join_cons, String.length_append,
    hnewline]
  omega

/-- What is printed of some groups is no longer than it would be with all
    headings. -/
theorem length_headedLines_le (previous : String) (groups : List (String × List PluginReport)) :
    (printed (headedLines previous groups)).length ≤ (printed (groupedLines groups)).length := by
  induction groups generalizing previous with
  | nil => exact Nat.le_refl _
  | cons e groups ih =>
      obtain ⟨name, reports⟩ := e
      have ih := ih name
      rw [groupedLines, List.flatMap_cons, ← groupedLines, headedLines]
      simp only [printed_append, String.length_append]
      split
      · have hnone : (printed []).length = 0 := rfl
        omega
      · omega

/-- A group that has the name of the one before it is printed without its
    heading, and the text is too short. -/
theorem isChain_of_length_le {previous : String} {groups : List (String × List PluginReport)}
    (h : (printed (groupedLines groups)).length ≤ (printed (headedLines previous groups)).length) :
    (previous :: groups.map Prod.fst).IsChain (· ≠ ·) := by
  induction groups generalizing previous with
  | nil => exact .singleton previous
  | cons e groups ih =>
      obtain ⟨name, reports⟩ := e
      have hshort := length_headedLines_le name groups
      rw [groupedLines, List.flatMap_cons, ← groupedLines, headedLines] at h
      simp only [printed_append, String.length_append] at h
      by_cases hname : name = previous
      · rw [if_pos hname] at h
        have hheading := length_heading_pos name
        have hnone : (printed []).length = 0 := rfl
        omega
      · rw [if_neg hname] at h
        have hrest : (printed (groupedLines groups)).length
            ≤ (printed (headedLines name groups)).length := by
          omega
        exact .cons_cons (Ne.symm hname) (ih hrest)

/-- Where neighbours have different names, every section gets its heading. -/
theorem headedLines_of_isChain {previous : String} {groups : List (String × List PluginReport)}
    (h : (previous :: groups.map Prod.fst).IsChain (· ≠ ·)) :
    headedLines previous groups = groupedLines groups := by
  induction groups generalizing previous with
  | nil => rfl
  | cons e groups ih =>
      obtain ⟨name, reports⟩ := e
      obtain ⟨hname, hrest⟩ := List.isChain_cons_cons.mp h
      rw [headedLines, if_neg (Ne.symm hname), ih hrest, groupedLines, groupedLines,
        List.flatMap_cons]

/-! ## Reports -/

/-- The text of a report between the line on the requirements and the heading
    of the conditional files. -/
def pluginText (r : Report) : String :=
  printed (pluginLines "" r.plugins)

/-- The text of a report: what is required, the plugins, and the files. -/
theorem text_eq (r : Report) :
    r.text = printed [r.name ++ " (configuration " ++ r.version ++ ")",
        requirementsLine r.requirements]
      ++ r.pluginText ++ printed (["", "Conditional files:"] ++ fileLines r.conditionalFiles) := by
  have htext : r.text = printed r.lines := rfl
  rw [htext, lines, List.append_assoc, printed_append, printed_append, pluginText]

/-- **When each group has its own heading.**  A report shows the groups that
    have plugins in order, and under each of them one line for each plugin;
    but it leaves out the heading of a group that has the name of the group
    before it, and of a first group whose name is empty.  So each group is
    under a heading of its own exactly when no two neighbours among the groups
    with plugins share a name and the first of them has one. -/
theorem text_grouped_iff (package : Package) (s : InstallState) (selected : List String) :
    let report := build package s selected
    let groups := sections selected s package.filledGroups
    report.text = printed [report.name ++ " (configuration " ++ report.version ++ ")",
        requirementsLine report.requirements]
      ++ report.pluginText
      ++ printed (["", "Conditional files:"] ++ fileLines report.conditionalFiles) ∧
    report.pluginText = printed (headedLines "" groups) ∧
    (report.pluginText = printed (groupedLines groups) ↔
      ("" :: package.filledGroups.map (·.name)).IsChain (· ≠ ·)) := by
  intro report groups
  have hprinted : report.pluginText = printed (headedLines "" groups) := by
    have hfilled : ∀ g ∈ package.filledGroups, g.plugins ≠ [] := by
      intro g hg
      simpa using (List.mem_filter.mp hg).2
    show printed (pluginLines "" (walk selected s (entries package.groups)).1) = _
    rw [← entries_filledGroups, walk_entries, pluginLines_sections (of_mem_sections hfilled s)]
  have hnames : package.filledGroups.map (·.name) = groups.map Prod.fst :=
    (map_fst_sections s _).symm
  refine ⟨text_eq report, hprinted, ?_⟩
  rw [hprinted, hnames]
  constructor
  · intro h
    -- a heading that is left out makes the text shorter
    exact isChain_of_length_le (Nat.le_of_eq (congrArg String.length h.symm))
  · intro h
    rw [headedLines_of_isChain h]

/-- Two groups of one name behind each other. -/
def sameName : Package where
  version      := "2.0"
  name         := "M"
  requirements := ⟨.all, []⟩
  groups       := [
    { name := "G", type := .any, plugins := [flagged "A" "1" none] },
    { name := "G", type := .all, plugins := [flagged "B" "2" none] }]

/-- Both are shown under one heading, and that is not the text in which each
    has its own. -/
theorem text_grouped_iff_sameName :
    (build sameName .empty []).pluginText
      = "\n[G]\n  A                                        Optional\n"
        ++ "  B                                        Optional\n" ∧
    (build sameName .empty []).pluginText
      ≠ printed (groupedLines (sections [] .empty sameName.filledGroups)) := by
  obtain ⟨-, -, hiff⟩ := text_grouped_iff sameName .empty []
  refine ⟨by decide, fun h => ?_⟩
  exact absurd (hiff.mp h) (by decide)

end Report

end ModInstall
