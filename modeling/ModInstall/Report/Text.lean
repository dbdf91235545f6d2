import ModInstall.Report.Basic

/-! # Reports as text

    A report is written in lines: the package, whether its requirements are
    met, the plugins, and the conditional files.  A heading is written above a
    plugin whose group has another name than that of the plugin before it, the
    first plugin being compared with the empty name. -/

namespace ModInstall.Report

/-- The width that the names of plugins are filled up to. -/
def nameWidth : Nat := 40

/-- A name filled up with blanks; a longer one stays as it is. -/
def padded (name : String) : String :=
  name ++ String.ofList (List.replicate (nameWidth - name.length) ' ')

/-- The line on the requirements. -/
def requirementsLine : Except EvaluationError Bool → String
  | .ok true  => "Requirements: met"
  | .ok false => "Requirements: not met"
  | .error e  => "Requirements: " ++ e.message

/-- The line on a plugin. -/
def pluginLine (p : PluginReport) : String :=
  "  " ++ padded p.name ++ " " ++
    match p.type with
    | .ok type => type.name
    | .error e => "error: " ++ e.message

/-- The lines above a group. -/
def heading (group : String) : List String :=
  ["", "[" ++ group ++ "]"]

/-- The lines on plugins that follow one of the group `previous`. -/
def pluginLines (previous : String) : List PluginReport → List String
  | []      => []
  | p :: ps =>
      (if p.group = previous then [] else heading p.group) ++ pluginLine p :: pluginLines p.group ps

/-- The lines on the conditional files. -/
def fileLines : Except EvaluationError (List FileEntry) → List String
  | .ok []    => ["  (none)"]
  | .ok files => files.map fun f => "  " ++ f.source ++ " -> " ++ f.destination
  | .error e  => ["  error: " ++ e.message]

/-- The lines of a report. -/
def lines (r : Report) : List String :=
  [r.name ++ " (configuration " ++ r.version ++ ")", requirementsLine r.requirements]
    ++ pluginLines "" r.plugins
    ++ ["", "Conditional files:"]
    ++ fileLines r.conditionalFiles

/-- The text of a report. -/
def text (r : Report) : String :=
  String.join (r.lines.map (· ++ "\n"))

end ModInstall.Report
