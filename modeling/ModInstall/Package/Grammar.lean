import ModInstall.Markup.Document
import ModInstall.Text.Blank

/-! # Grammars

    There are three versions of the configuration format, and each but the
    first extends the one before.  A grammar lists only the forms that it adds
    (`ownConditionForms` and its fellows); a form is looked for in the grammar
    itself and then in those that it extends, newest first.

    A document names its version in the reference to its schema. -/

namespace ModInstall

/-- What a member of a group of conditions can be. -/
inductive ConditionForm
  | group
  | file
  | flag
  | gameVersion
  | managerVersion
deriving DecidableEq

/-- What a requirement of the whole package can be. -/
inductive PackageForm
  | file
  | gameVersion
  | managerVersion
deriving DecidableEq

/-- How the type of a plugin can be given. -/
inductive TypeForm
  | fixed
  | computed
deriving DecidableEq

/-- A version of the configuration format. -/
inductive Grammar
  | v1
  | v2
  | v3
deriving DecidableEq

namespace Grammar

/-- The number of a version. -/
def version : Grammar → String
  | .v1 => "1.0"
  | .v2 => "2.0"
  | .v3 => "3.0"

/-- The grammar that a grammar extends. -/
def base : Grammar → Option Grammar
  | .v1 => none
  | .v2 => some .v1
  | .v3 => some .v2

/-- A grammar and those that it extends, newest first. -/
def lineage : Grammar → List Grammar
  | .v1 => [.v1]
  | .v2 => [.v2, .v1]
  | .v3 => [.v3, .v2, .v1]

/-- The members of groups that a grammar adds. -/
def ownConditionForms : Grammar → List (String × ConditionForm)
  | .v1 => [("dependencies", .group), ("fileDependency", .file)]
  | .v2 => [("flagDependency", .flag)]
  | .v3 => [("gameDependency", .gameVersion), ("fommDependency", .managerVersion)]

/-- The requirements of packages that a grammar adds. -/
def ownPackageForms : Grammar → List (String × PackageForm)
  | .v1 => [("fileDependency", .file)]
  | .v2 => [("falloutDependency", .gameVersion), ("fommDependency", .managerVersion)]
  | .v3 => [("gameDependency", .gameVersion)]

/-- The ways to give a plugin its type that a grammar adds. -/
def ownTypeForms : Grammar → List (String × TypeForm)
  | .v1 => [("type", .fixed)]
  | .v2 => [("dependencyType", .computed)]
  | .v3 => []

/-- The form of a member of a group, by the name of its element. -/
def conditionForm? (g : Grammar) (kind : String) : Option ConditionForm :=
  g.lineage.findSome? (·.ownConditionForms.lookup kind)

/-- The form of a requirement of the package, by the name of its element. -/
def packageForm? (g : Grammar) (kind : String) : Option PackageForm :=
  g.lineage.findSome? (·.ownPackageForms.lookup kind)

/-- The form of a type rule, by the name of its element. -/
def typeForm? (g : Grammar) (kind : String) : Option TypeForm :=
  g.lineage.findSome? (·.ownTypeForms.lookup kind)

/-- Whether plugins set flags. -/
def readsFlags : Grammar → Bool
  | .v1 => false
  | _   => true

/-- Where the patterns of conditional files stand, if there are any in this
    version. -/
def conditionalFilesPath : Grammar → Option String
  | .v1 => none
  | _   => some "/config/conditionalFileInstalls/patterns/*"

/-- All grammars, oldest first. -/
def all : List Grammar := [.v1, .v2, .v3]

/-- The numbers of all versions, oldest first. -/
def supportedVersions : List String := all.map version

/-- The grammar for a version as a document writes it, with blanks around it or
    not. -/
def forVersion? (text : String) : Option Grammar :=
  all.find? (·.version == Text.trimmed text)

/-- The version in a reference to a schema: what stands between `ModConfig` and
    `.xsd` in its last segment. -/
def versionOfLocation? (location : String) : Option String := do
  let file ← (Text.pieces (fun c => c == '/' || c == '\\') location.toList).getLast?
  let numbered ← Text.dropLead? "ModConfig".toList file
  let version ← Text.dropTail? ".xsd".toList numbered
  if version = [] then none else some (String.ofList version)

/-- The version that a document declares. -/
def declaredVersion? (d : Markup.Document) : Option String :=
  (d.root.attribute? "noNamespaceSchemaLocation").bind versionOfLocation?

end Grammar

end ModInstall
