import ModInstall.InstallState.Basic

/-! # Reports

    A report says how a package presents itself in a state when some plugins
    are chosen.  The plugins are walked in the order of the package: each is
    shown with the type it has when its turn comes, and if it is among the
    chosen, its flags are set before the next one's turn.  The conditional
    files are those of the state at the end.  What cannot be evaluated is
    reported as such and stops nothing. -/

namespace ModInstall

/-- One plugin of a report. -/
structure PluginReport where
  group : String
  name  : String
  type  : Except EvaluationError PluginType

/-- How a package presents itself. -/
structure Report where
  name             : String
  version          : String
  requirements     : Except EvaluationError Bool
  plugins          : List PluginReport
  conditionalFiles : Except EvaluationError (List FileEntry)

namespace Report

/-- The plugins of some groups, each with the name of its group. -/
def entries (groups : List PluginGroup) : List (String × Plugin) :=
  groups.flatMap fun g => g.plugins.map fun p => (g.name, p)

/-- The state after the turn of a plugin. -/
def after (selected : List String) (s : InstallState) (p : Plugin) : InstallState :=
  if p.name ∈ selected then s.choose p else s

/-- The plugins as they present themselves one after the other, and the state
    behind them. -/
def walk (selected : List String) (s : InstallState) :
    List (String × Plugin) → List PluginReport × InstallState
  | []           => ([], s)
  | (g, p) :: es =>
      let (reports, last) := walk selected (after selected s p) es
      (⟨g, p.name, p.resolveType s.facts⟩ :: reports, last)

/-- The report on a package in a state, with the plugins of some names
    chosen. -/
def build (package : Package) (s : InstallState) (selected : List String) : Report :=
  let (plugins, last) := walk selected s (entries package.groups)
  { name             := package.name
    version          := package.version
    requirements     := package.requirements.evaluate s.facts
    plugins
    conditionalFiles := ConditionalFiles.select last.facts package.conditionalFiles }

end Report

end ModInstall
