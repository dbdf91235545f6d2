import ModInstall.Condition.Evaluation
import ModInstall.Package.Image

/-! # Packages

    What a package offers for installation: groups of plugins to choose from,
    files that are always installed, and files that are installed when a
    condition holds.  How a plugin presents itself is a `PluginType`, given
    outright or computed from the state by patterns, of which the first that
    holds decides. -/

namespace ModInstall

/-- How a plugin presents itself. -/
inductive PluginType
  | required
  | optional
  | recommended
  | notUsable
  | couldBeUsable
deriving DecidableEq

namespace PluginType

/-- The name of a plugin type. -/
def name : PluginType → String
  | .required      => "Required"
  | .optional      => "Optional"
  | .recommended   => "Recommended"
  | .notUsable     => "NotUsable"
  | .couldBeUsable => "CouldBeUsable"

/-- All plugin types. -/
def all : List PluginType := [.required, .optional, .recommended, .notUsable, .couldBeUsable]

/-- The plugin type with a name. -/
def ofName? (text : String) : Option PluginType :=
  all.find? (·.name == text)

end PluginType

/-- How many plugins of a group may be chosen. -/
inductive GroupType
  | any
  | all
  | exactlyOne
  | atMostOne
  | atLeastOne
deriving DecidableEq

namespace GroupType

/-- The name of a group type. -/
def name : GroupType → String
  | .any        => "SelectAny"
  | .all        => "SelectAll"
  | .exactlyOne => "SelectExactlyOne"
  | .atMostOne  => "SelectAtMostOne"
  | .atLeastOne => "SelectAtLeastOne"

/-- The group type with a name. -/
def ofName? (text : String) : Option GroupType :=
  [GroupType.any, .all, .exactlyOne, .atMostOne, .atLeastOne].find? (·.name == text)

end GroupType

/-- What an entry of a file list stands for. -/
inductive FileKind
  | file
  | folder
deriving DecidableEq

namespace FileKind

/-- The name of a file kind. -/
def name : FileKind → String
  | .file   => "File"
  | .folder => "Folder"

/-- The file kind with a name. -/
def ofName? (text : String) : Option FileKind :=
  [FileKind.file, .folder].find? (·.name == text)

end FileKind

/-- A file or folder to install. -/
structure FileEntry where
  source          : String
  destination     : String
  kind            : FileKind
  priority        : Int32 := 0
  alwaysInstall   : Bool := false
  installIfUsable : Bool := false
deriving DecidableEq

/-- A file or folder that is installed under the name it has in the package. -/
def FileEntry.ofSource (kind : FileKind) (source : String) : FileEntry :=
  { source, destination := source, kind }

/-- A flag that a plugin sets when it is chosen. -/
structure ConditionFlag where
  name  : String
  value : String
deriving DecidableEq

/-- A plugin type with the condition under which it applies. -/
structure TypePattern where
  type      : PluginType
  condition : Requirement
deriving DecidableEq

/-- How the type of a plugin is found. -/
inductive TypeRule
  | fixed (type : PluginType)
  | computed (default : PluginType) (patterns : List TypePattern)
deriving DecidableEq

/-- The type of the first pattern that holds, or else `default`.  Later
    patterns are not looked at. -/
def TypePattern.firstMatch (facts : Facts) (default : PluginType) :
    List TypePattern → Except EvaluationError PluginType
  | []      => .ok default
  | p :: ps => do
      if ← p.condition.evaluate facts then return p.type
      firstMatch facts default ps

/-- The type that a rule gives under some facts. -/
def TypeRule.resolve (facts : Facts) : TypeRule → Except EvaluationError PluginType
  | .fixed type                => .ok type
  | .computed default patterns => TypePattern.firstMatch facts default patterns

/-- A plugin: something to choose. -/
structure Plugin where
  name        : String
  description : String
  image       : Option Image := none
  typeRule    : TypeRule
  files       : List FileEntry := []
  flags       : List ConditionFlag := []
deriving DecidableEq

/-- The type of a plugin under some facts. -/
def Plugin.resolveType (facts : Facts) (p : Plugin) : Except EvaluationError PluginType :=
  p.typeRule.resolve facts

/-- A group of plugins. -/
structure PluginGroup where
  name    : String
  type    : GroupType
  plugins : List Plugin := []
deriving DecidableEq

/-- Files that are installed when a condition holds. -/
structure ConditionalFiles where
  condition : Requirement
  files     : List FileEntry := []
deriving DecidableEq

namespace ConditionalFiles

/-- Whether the files are to be installed. -/
def applies (facts : Facts) (c : ConditionalFiles) : Except EvaluationError Bool :=
  c.condition.evaluate facts

/-- The files of all patterns that apply, in order.  All patterns are looked
    at. -/
def select (facts : Facts) : List ConditionalFiles → Except EvaluationError (List FileEntry)
  | []      => .ok []
  | c :: cs => do
      let holds ← c.applies facts
      let more ← select facts cs
      return (if holds then c.files else []) ++ more

end ConditionalFiles

/-- A package: everything its configuration says.  `version` is that of the
    configuration format. -/
structure Package where
  version          : String
  name             : String
  image            : Option Image := none
  requirements     : Requirement
  requiredFiles    : List FileEntry := []
  groups           : List PluginGroup := []
  conditionalFiles : List ConditionalFiles := []
deriving DecidableEq

/-- The plugins of all groups, in order. -/
def Package.plugins (p : Package) : List Plugin :=
  p.groups.flatMap (·.plugins)

end ModInstall
