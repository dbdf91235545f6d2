import ModInstall.Proofs.InstallState.Flags
import ModInstall.Report.Json

/-! # Reports follow the walk over the plugins

    A report is made in one pass that reads the state and writes to it in
    turns.  Here both are pulled apart: `stateBefore` is the state before the
    turn of a plugin, made of the plugins in front of it that are chosen, and
    `FollowsWalk` says what a report shows when each entry is judged in the
    state before its turn.  What a report does not depend on, the order of the
    chosen names or what comes behind an entry, is read off that. -/

namespace ModInstall

/-- A plugin stands at a place of a package: how many plugins come before it,
    and the group it belongs to. -/
def Package.StandsAt (package : Package) (i : Nat) (g : PluginGroup) (p : Plugin) : Prop :=
  ∃ gs hs ps qs, package.groups = gs ++ g :: hs ∧ g.plugins = ps ++ p :: qs ∧
    i = (gs.flatMap (·.plugins)).length + ps.length

namespace Report

variable {package : Package} {selected : List String} {s₀ : InstallState}

/-- The plugins with a chosen name, in order. -/
def chosen (selected : List String) (ps : List Plugin) : List Plugin :=
  ps.filter (·.name ∈ selected)

/-- A state after the chosen ones among some plugins have set their flags. -/
def stateBehind (selected : List String) (s : InstallState) (ps : List Plugin) : InstallState :=
  (chosen selected ps).foldl InstallState.choose s

/-- The state before the turn of the plugin at a place. -/
def stateBefore (package : Package) (selected : List String) (s₀ : InstallState) (i : Nat) :
    InstallState :=
  stateBehind selected s₀ (package.plugins.take i)

/-! ## The walk -/

/-- What is chosen first is in the state for all that follow. -/
theorem stateBehind_cons (s : InstallState) (p : Plugin) (ps : List Plugin) :
    stateBehind selected s (p :: ps) = stateBehind selected (after selected s p) ps := by
  rw [stateBehind, stateBehind, chosen, chosen, List.filter_cons, after]
  by_cases h : p.name ∈ selected <;> simp [h]

/-- The walk leaves the state behind all its plugins. -/
theorem walk_state (s : InstallState) (es : List (String × Plugin)) :
    (walk selected s es).2 = stateBehind selected s (es.map Prod.snd) := by
  induction es generalizing s with
  | nil => rfl
  | cons e es ih =>
      obtain ⟨g, p⟩ := e
      rw [List.map_cons, stateBehind_cons, ← ih]
      rfl

theorem walk_length (s : InstallState) (es : List (String × Plugin)) :
    (walk selected s es).1.length = es.length := by
  induction es generalizing s with
  | nil => rfl
  | cons e es ih => exact congrArg (· + 1) (ih _)

/-- An entry shows its plugin in the state behind those in front of it. -/
theorem walk_getElem? {i : Nat} {g : String} {p : Plugin} {es : List (String × Plugin)}
    (s : InstallState) (h : es[i]? = some (g, p)) :
    (walk selected s es).1[i]? = some ⟨g, p.name,
      p.resolveType (stateBehind selected s ((es.map Prod.snd).take i)).facts⟩ := by
  induction es generalizing s i with
  | nil => exact nomatch h
  | cons e es ih =>
      obtain ⟨g', p'⟩ := e
      cases i with
      | zero =>
          obtain ⟨rfl, rfl⟩ := Prod.mk.inj (Option.some.inj h)
          rfl
      | succ i =>
          -- the turn of the first plugin comes before that of the entry
          rw [List.map_cons, List.take_succ_cons, stateBehind_cons]
          exact ih (after selected s p') h

/-! ## Places -/

/-- The entries are the plugins of the groups, in order. -/
theorem map_snd_entries (groups : List PluginGroup) :
    (entries groups).map Prod.snd = groups.flatMap (·.plugins) := by
  rw [entries, List.map_flatMap]
  congr
  funext g
  rw [List.map_map]
  exact List.map_id _

theorem entries_append (gs hs : List PluginGroup) :
    entries (gs ++ hs) = entries gs ++ entries hs :=
  List.flatMap_append

theorem length_entries (groups : List PluginGroup) :
    (entries groups).length = (groups.flatMap (·.plugins)).length := by
  rw [← map_snd_entries, List.length_map]

/-- A plugin at a place is the entry at this place, under its group. -/
theorem entries_getElem? {i : Nat} {g : PluginGroup} {p : Plugin} (h : package.StandsAt i g p) :
    (entries package.groups)[i]? = some (g.name, p) := by
  obtain ⟨gs, hs, ps, qs, hg, hp, rfl⟩ := h
  have hgroup : entries (g :: hs)
      = ps.map (g.name, ·) ++ (g.name, p) :: (qs.map (g.name, ·) ++ entries hs) := by
    rw [entries, List.flatMap_cons, hp]
    simp [entries]
  rw [hg, entries_append, hgroup, ← length_entries, List.getElem?_append_right (by omega)]
  simp

/-- A plugin at a place is the plugin at this place, whatever its group. -/
theorem plugins_getElem? {i : Nat} {g : PluginGroup} {p : Plugin} (h : package.StandsAt i g p) :
    package.plugins[i]? = some p := by
  rw [Package.plugins, ← map_snd_entries, List.getElem?_map, entries_getElem? h]
  rfl

/-- At every place stands a plugin of some group. -/
theorem exists_standsAt {i : Nat} (h : i < package.plugins.length) :
    ∃ g p, package.StandsAt i g p := by
  unfold Package.plugins at h
  unfold Package.StandsAt
  generalize package.groups = groups at h ⊢
  induction groups generalizing i with
  | nil => exact absurd h (Nat.not_lt_zero _)
  | cons g groups ih =>
      rw [List.flatMap_cons, List.length_append] at h
      by_cases hi : i < g.plugins.length
      · -- the place is one of the first group
        refine ⟨g, g.plugins[i], [], groups, g.plugins.take i, g.plugins.drop (i + 1), rfl, ?_, ?_⟩
        · rw [List.getElem_cons_drop, List.take_append_drop]
        · rw [List.length_take, Nat.min_eq_left (Nat.le_of_lt hi)]
          exact (Nat.zero_add i).symm
      · obtain ⟨g', p, gs, hs, ps, qs, rfl, hp, hplace⟩ := ih (i := i - g.plugins.length) (by omega)
        refine ⟨g', p, g :: gs, hs, ps, qs, rfl, hp, ?_⟩
        rw [List.flatMap_cons, List.length_append]
        omega

/-! ## Reports -/

/-- A report shows a package as the walk over its plugins finds it: the
    requirements before the walk, every plugin before its own turn, the
    conditional files after the walk, when the state is `last`. -/
structure FollowsWalk (package : Package) (selected : List String) (s₀ : InstallState)
    (report : Report) (last : InstallState) : Prop where
  name             : report.name = package.name
  version          : report.version = package.version
  requirements     : report.requirements = package.requirements.evaluate s₀.facts
  length           : report.plugins.length = package.plugins.length
  entry            : ∀ i g p, package.StandsAt i g p → report.plugins[i]? = some
    ⟨g.name, p.name, p.resolveType (stateBefore package selected s₀ i).facts⟩
  conditionalFiles :
    report.conditionalFiles = ConditionalFiles.select last.facts package.conditionalFiles
  last             : last = stateBefore package selected s₀ package.plugins.length

/-- A report that is built follows the walk. -/
theorem followsWalk_build (package : Package) (selected : List String) (s₀ : InstallState) :
    FollowsWalk package selected s₀ (build package s₀ selected)
      (walk selected s₀ (entries package.groups)).2 where
  name := rfl
  version := rfl
  requirements := rfl
  length := (walk_length s₀ _).trans (length_entries package.groups)
  entry i g p h := by
    rw [stateBefore, Package.plugins, ← map_snd_entries]
    exact walk_getElem? s₀ (entries_getElem? h)
  conditionalFiles := rfl
  last := by
    rw [walk_state, map_snd_entries, stateBefore, List.take_length]
    rfl

/-- The names that count are those of plugins of the package. -/
theorem after_congr {selected' : List String} {s : InstallState} {p : Plugin}
    (h : p.name ∈ selected' ↔ p.name ∈ selected) : after selected' s p = after selected s p := by
  rw [after, after]
  by_cases hp : p.name ∈ selected
  · rw [if_pos hp, if_pos (h.mpr hp)]
  · rw [if_neg hp, if_neg (mt h.mp hp)]

/-- Only the names of the plugins on the way matter in a selection. -/
theorem walk_congr {selected' : List String} {es : List (String × Plugin)}
    (h : ∀ e ∈ es, e.2.name ∈ selected' ↔ e.2.name ∈ selected) (s : InstallState) :
    walk selected' s es = walk selected s es := by
  induction es generalizing s with
  | nil => rfl
  | cons e es ih =>
      obtain ⟨g, p⟩ := e
      rw [walk, walk, after_congr (h (g, p) (List.mem_cons_self ..)),
        ih fun e he => h e (List.mem_cons_of_mem _ he)]

/-- A report does not depend on names that no plugin has. -/
theorem build_congr {selected' : List String}
    (h : ∀ p ∈ package.plugins, p.name ∈ selected' ↔ p.name ∈ selected) :
    build package s₀ selected' = build package s₀ selected := by
  rw [build, build, walk_congr]
  intro e he
  refine h e.2 ?_
  rw [Package.plugins, ← map_snd_entries]
  exact List.mem_map_of_mem he

/-- The type that a report shows depends on the plugins in front and on the
    rule of the type. -/
theorem build_type_congr {package' : Package} {i : Nat} {g g' : PluginGroup} {p p' : Plugin}
    (hfront : package'.plugins.take i = package.plugins.take i) (h : package.StandsAt i g p)
    (h' : package'.StandsAt i g' p') (hrule : p'.typeRule = p.typeRule) :
    (build package' s₀ selected).plugins[i]?.map (·.type)
      = (build package s₀ selected).plugins[i]?.map (·.type) := by
  rw [(followsWalk_build package' selected s₀).entry i g' p' h',
    (followsWalk_build package selected s₀).entry i g p h]
  simp only [stateBefore, hfront, Plugin.resolveType, hrule, Option.map_some]

/-- **A report follows the walk over the plugins.**  Each plugin is shown once,
    under its group and with the type that it has before its own turn; what
    cannot be found out is shown as the text of the error and stops nothing.
    The state before a turn differs from the first one in flags only, and a
    flag holds the last value that a chosen plugin in front has given it, every
    plugin with a chosen name counting.  So the chosen names matter only in
    which plugins they name, and a type does not depend on what the plugin
    itself sets or on those behind it. -/
theorem build_follows_walk (package : Package) (selected : List String) (s₀ : InstallState) :
    FollowsWalk package selected s₀ (build package s₀ selected)
      (walk selected s₀ (entries package.groups)).2 ∧
    (∀ i < package.plugins.length, ∃ g p, package.StandsAt i g p ∧ package.plugins[i]? = some p) ∧
    (∀ i g p e, package.StandsAt i g p →
      p.resolveType (stateBefore package selected s₀ i).facts = .error e →
      (build package s₀ selected).plugins[i]?.map PluginReport.toJson
        = some (.object [("group", .string g.name), ("name", .string p.name),
            ("pluginType", .object [("error", .string e.message)])])) ∧
    (∀ i, stateBefore package selected s₀ i
        = { s₀ with flags := (stateBefore package selected s₀ i).flags } ∧
      ∀ name, (stateBefore package selected s₀ i).flagValue name
        = (InstallState.lastValue
            ((chosen selected (package.plugins.take i)).flatMap (·.flags)) name).or
          (s₀.flagValue name)) ∧
    (∀ selected', (∀ p ∈ package.plugins, p.name ∈ selected' ↔ p.name ∈ selected) →
      build package s₀ selected' = build package s₀ selected) ∧
    (∀ package' i g g' p p', package'.plugins.take i = package.plugins.take i →
      package.StandsAt i g p → package'.StandsAt i g' p' → p'.typeRule = p.typeRule →
      (build package' s₀ selected).plugins[i]?.map (·.type)
        = (build package s₀ selected).plugins[i]?.map (·.type)) := by
  have hfollows := followsWalk_build package selected s₀
  refine ⟨hfollows, ?places, ?failed, ?states, fun _ h => build_congr h,
    fun _ _ _ _ _ _ hfront h h' hrule => build_type_congr hfront h h' hrule⟩
  case places =>
    intro i hi
    obtain ⟨g, p, h⟩ := exists_standsAt hi
    exact ⟨g, p, h, plugins_getElem? h⟩
  case failed =>
    intro i g p e h he
    rw [hfollows.entry i g p h, he]
    rfl
  case states =>
    intro i
    exact ⟨InstallState.foldl_choose_eq s₀ _, fun _ => InstallState.flagValue_foldl_choose s₀ _⟩

/-- A plugin that gives a flag a value and is required when the flag holds
    another. -/
def flagged (name value : String) (wanted : Option String) : Plugin where
  name
  description := ""
  typeRule    := match wanted with
    | none       => .fixed .optional
    | some value => .computed .optional [⟨.required, ⟨.all, [.atom (.flag "F" value)]⟩⟩]
  flags       := [⟨"F", value⟩]

/-- Two plugins of one name, both chosen, and a third behind them. -/
def threePlugins : Package where
  version      := "2.0"
  name         := "M"
  requirements := ⟨.all, []⟩
  groups       := [
    { name := "G", type := .any, plugins := [flagged "A" "1" none] },
    { name := "H", type := .any, plugins := [
      flagged "A" "2" (some "1"), flagged "B" "3" (some "2")] }]

/-- The second plugin sees the flag of the first and not its own, the third
    sees that of the second, and naming them twice or naming a stranger changes
    nothing. -/
theorem build_follows_walk_shared_name :
    (build threePlugins .empty ["A"]).plugins
      = [⟨"G", "A", .ok .optional⟩, ⟨"H", "A", .ok .required⟩, ⟨"H", "B", .ok .required⟩] ∧
    build threePlugins .empty ["X", "A", "A"] = build threePlugins .empty ["A"] := by
  obtain ⟨hfollows, -, -, -, hnames, -⟩ := build_follows_walk threePlugins ["A"] .empty
  have hfirst : threePlugins.StandsAt 0 _ _ := ⟨[], _, [], _, rfl, rfl, rfl⟩
  have hsecond : threePlugins.StandsAt 1 _ _ := ⟨[_], [], [], _, rfl, rfl, rfl⟩
  have hthird : threePlugins.StandsAt 2 _ _ := ⟨[_], [], [_], [], rfl, rfl, rfl⟩
  refine ⟨?_, hnames ["X", "A", "A"] (by decide)⟩
  refine List.ext_getElem? fun i => ?_
  match i with
  | 0 => exact hfollows.entry 0 _ _ hfirst
  | 1 => exact hfollows.entry 1 _ _ hsecond
  | 2 => exact hfollows.entry 2 _ _ hthird
  | i + 3 =>
      have hlength : (build threePlugins .empty ["A"]).plugins.length = 3 := hfollows.length
      rw [List.getElem?_eq_none (by omega)]
      rfl

end Report

end ModInstall
