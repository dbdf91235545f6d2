import ModInstall.Package.Basic
import ModInstall.Package.Error
import ModInstall.Package.Grammar
import ModInstall.Package.Options

/-! # Reading packages

    A `Reader` turns a document into a package with the forms of one grammar.
    Nothing is skipped: a node that the grammar cannot place fails the reading,
    and of several faults the first in reading order is reported.  The order is
    name, image, requirements, required files, groups, conditional files;
    within a plugin it is name, description, type, image, files, flags. -/

namespace ModInstall

open Markup (Element Document)

namespace Reader

/-- The value of an attribute that has to be there. -/
def requireAttribute (e : Element) (key : String) : Except ConfigError String :=
  match e.attribute? key with
  | some value => .ok value
  | none       => .error (.missingAttribute e.name key)

/-- The first element that a path leads to, where there has to be one. -/
def requireChild (e : Element) (path : String) : Except ConfigError Element :=
  match e.selectFirst? path with
  | some child => .ok child
  | none       => .error (.missingChild e.name path)

/-- A value that has been read, or the error that names its kind and text. -/
def valueOr {α : Type} (kind : ValueKind) (text : String) : Option α → Except ConfigError α
  | some value => .ok value
  | none       => .error (.badValue kind text)

/-- The value of an attribute that has to be there and has to be a value of its
    kind. -/
def requireValue {α : Type} (kind : ValueKind) (ofText? : String → Option α) (e : Element)
    (key : String) : Except ConfigError α := do
  let text ← requireAttribute e key
  valueOr kind text (ofText? text)

/-- The version that a text stands for, or the error that carries the text as
    it is. -/
def versionOf (text : String) : Except ConfigError Version :=
  match Version.parse? text with
  | some version => .ok version
  | none         => .error (.badVersion text)

/-- The version in the attribute `version`. -/
def requireVersion (e : Element) : Except ConfigError Version := do
  let text ← requireAttribute e "version"
  versionOf text

/-- The plugin type in the attribute `name`. -/
def requireType (e : Element) : Except ConfigError PluginType :=
  requireValue .pluginType PluginType.ofName? e "name"

/-- The truth that a text stands for. -/
def truth? (text : String) : Option Bool :=
  if text = "true" ∨ text = "1" then some true
  else if text = "false" ∨ text = "0" then some false
  else none

/-- The truth of an attribute; one that is not there is false. -/
def readTruth (e : Element) (key : String) : Except ConfigError Bool :=
  match e.attribute? key with
  | none      => .ok false
  | some text => valueOr .boolean text (truth? text)

/-- The priority of a file; blanks around the numeral do not matter. -/
def readPriority (e : Element) : Except ConfigError Int32 :=
  match e.attribute? "priority" with
  | none      => .ok 0
  | some text => valueOr .priority text (Text.int32? (Text.trim text.toList))

/-- The kind of an entry of a file list. -/
def fileKind? (name : String) : Option FileKind :=
  if name = "file" then some .file
  else if name = "folder" then some .folder
  else none

/-- An entry of a file list. -/
def fileEntry (e : Element) : Except ConfigError FileEntry :=
  match fileKind? e.name with
  | none      => .error (.unknownFileNode e.name)
  | some kind => do
      let source ← requireAttribute e "source"
      let priority ← readPriority e
      let alwaysInstall ← readTruth e "alwaysInstall"
      let installIfUsable ← readTruth e "installIfUsable"
      return { source, destination := (e.attribute? "destination").getD source, kind, priority,
               alwaysInstall, installIfUsable }

/-- A flag that a plugin sets: its value is the content of the element as
    written. -/
def flag (e : Element) : Except ConfigError ConditionFlag := do
  let name ← requireAttribute e "name"
  return ⟨name, e.content⟩

/-- The predicate on a file and its state. -/
def filePredicate (e : Element) : Except ConfigError Predicate := do
  let file ← requireAttribute e "file"
  let state ← requireValue .fileState FileState.ofName? e "state"
  return .fileIs file state

/-- The predicate on a flag and its value. -/
def flagPredicate (e : Element) : Except ConfigError Predicate := do
  let name ← requireAttribute e "flag"
  let value ← requireAttribute e "value"
  return .flag name value

/-- The requirement that a file is active. -/
def activePredicate (e : Element) : Except ConfigError Predicate := do
  let file ← requireAttribute e "file"
  return .fileIs file .active

/-- Reads a requirement of the whole package that has one of the forms of the
    grammar. -/
def packagePredicate (e : Element) : PackageForm → Except ConfigError Predicate
  | .file           => activePredicate e
  | .gameVersion    => (requireVersion e).map .gameVersion
  | .managerVersion => (requireVersion e).map .managerVersion

end Reader

/-- What a package is read with. -/
structure Reader where
  grammar   : Grammar
  options   : Options := {}
  extension : Extension := Extension.declining
  images    : Image.Loader := Image.Loader.pathOnly

namespace Reader

/-- The reader for a document: its grammar is that of the version declared, or
    else of the fallback. -/
def forDocument (d : Document) (options : Options) : Except ConfigError Reader :=
  match (Grammar.declaredVersion? d).or options.fallbackVersion with
  | none => .error .undeclaredVersion
  | some version =>
      match Grammar.forVersion? version with
      | none         => .error (.unsupportedVersion version)
      | some grammar => .ok { grammar, options }

mutual

/-- Reads a group of conditions that stands at `level`, the outermost being at
    level 1. -/
def requirementAt (r : Reader) (level : Nat) : Element → Except ConfigError Requirement
  | e@⟨_, _, children, _, _⟩ =>
      if r.options.maxConditionDepth < level then
        .error (.conditionTooDeep r.options.maxConditionDepth)
      else do
        let operator ← requireValue .operator Operator.ofName? e "operator"
        let members ← membersAt r (level + 1) children
        return ⟨operator, members⟩

/-- Reads the members of a group; those that are groups stand at `level`. -/
def membersAt (r : Reader) (level : Nat) : List Element → Except ConfigError (List Condition)
  | []      => .ok []
  | e :: es => do
      let member ← match r.grammar.conditionForm? e.name with
        | none                 => .error (.unknownNode e.name)
        | some .group          => (requirementAt r level e).map Requirement.toCondition
        | some .file           => (filePredicate e).map .atom
        | some .flag           => (flagPredicate e).map .atom
        | some .gameVersion    => (requireVersion e).map (.atom ∘ .gameVersion)
        | some .managerVersion => (requireVersion e).map (.atom ∘ .managerVersion)
      let members ← membersAt r level es
      return member :: members

end

/-- Reads a condition whose outermost group is the element. -/
def requirement (r : Reader) (e : Element) : Except ConfigError Requirement :=
  r.requirementAt 1 e

/-- Reads one requirement of the whole package. -/
def packageRequirement (r : Reader) (e : Element) : Except ConfigError Predicate :=
  match r.grammar.packageForm? e.name with
  | some form => packagePredicate e form
  | none      =>
      match r.extension e with
      | some predicate => .ok predicate
      | none           => .error (.unknownNode e.name)

/-- Reads the requirements of the whole package, all of which have to hold. -/
def packageRequirements (r : Reader) (d : Document) : Except ConfigError Requirement := do
  let predicates ← (d.select "/config/moduleDependencies/*").mapM r.packageRequirement
  return ⟨.all, predicates.map .atom⟩

/-- Reads a plugin type and the condition under which it applies. -/
def typePattern (r : Reader) (e : Element) : Except ConfigError TypePattern := do
  let type ← requireType (← requireChild e "type")
  let condition ← r.requirement (← requireChild e "dependencies")
  return ⟨type, condition⟩

/-- Reads a type rule, given the element that stands for it. -/
def typeRule (r : Reader) (e : Element) : Except ConfigError TypeRule :=
  match r.grammar.typeForm? e.name with
  | none           => .error (.unknownNode e.name)
  | some .fixed    => (requireType e).map .fixed
  | some .computed => do
      let default ← requireType (← requireChild e "defaultType")
      let patterns ← (e.select "patterns/*").mapM r.typePattern
      return .computed default patterns

/-- The element that stands for the type rule of a plugin. -/
def typeElement (plugin : Element) : Except ConfigError Element := do
  let descriptor ← requireChild plugin "typeDescriptor"
  match descriptor.children.head? with
  | some e => return e
  | none   => throw (.missingChild "typeDescriptor" "*")

/-- Loads an image, given the element that names its path. -/
def image (r : Reader) (e : Element) : Except ConfigError Image := do
  let path ← requireAttribute e "path"
  (r.images path).mapError .image

/-- Loads the image that an element names, if there is one. -/
def imageOf? (r : Reader) : Option Element → Except ConfigError (Option Image)
  | none   => .ok none
  | some e => (r.image e).map some

/-- The description of a plugin as the options want it. -/
def describe (r : Reader) (text : String) : String :=
  if r.options.trimDescriptions then Text.trimmed text else text

/-- Reads a plugin. -/
def plugin (r : Reader) (e : Element) : Except ConfigError Plugin := do
  let name ← requireAttribute e "name"
  let description ← requireChild e "description"
  let typeRule ← r.typeRule (← typeElement e)
  let image ← r.imageOf? (e.selectFirst? "image")
  let files ← (e.select "files/*").mapM fileEntry
  let flags ← if r.grammar.readsFlags then (e.select "conditionFlags/*").mapM flag else .ok []
  return { name, description := r.describe description.text, image, typeRule, files, flags }

/-- Reads a group of plugins. -/
def group (r : Reader) (e : Element) : Except ConfigError PluginGroup := do
  let name ← requireAttribute e "name"
  let type ← requireValue .groupType GroupType.ofName? e "type"
  let plugins ← (e.select "plugins/*").mapM r.plugin
  return { name, type, plugins }

/-- Reads the groups of plugins. -/
def groups (r : Reader) (d : Document) : Except ConfigError (List PluginGroup) :=
  (d.select "/config/groups/*").mapM r.group

/-- Reads the plugins of all groups. -/
def plugins (r : Reader) (d : Document) : Except ConfigError (List Plugin) := do
  return (← r.groups d).flatMap (·.plugins)

/-- Reads a pattern of conditional files. -/
def conditionalPattern (r : Reader) (e : Element) : Except ConfigError ConditionalFiles := do
  let condition ← r.requirement (← requireChild e "dependencies")
  let files ← (e.select "files/*").mapM fileEntry
  return { condition, files }

/-- Reads the patterns of conditional files, if the grammar has them. -/
def conditionalFiles (r : Reader) (d : Document) : Except ConfigError (List ConditionalFiles) :=
  match r.grammar.conditionalFilesPath with
  | none      => .ok []
  | some path => (d.select path).mapM r.conditionalPattern

/-- Reads the files that are always installed. -/
def requiredFiles (d : Document) : Except ConfigError (List FileEntry) :=
  (d.select "/config/requiredInstallFiles/*").mapM fileEntry

/-- Reads the name of the package. -/
def packageName (d : Document) : Except ConfigError String :=
  match d.selectFirst? "/config/moduleName" with
  | some e => .ok (Text.trimmed e.text)
  | none   => .error (.missingChild d.root.name "moduleName")

/-- Loads the image of the package. -/
def packageImage (r : Reader) (d : Document) : Except ConfigError (Option Image) :=
  r.imageOf? (d.selectFirst? "/config/moduleImage")

/-- Reads a package. -/
def package (r : Reader) (d : Document) : Except ConfigError Package := do
  let name ← packageName d
  let image ← r.packageImage d
  let requirements ← r.packageRequirements d
  let requiredFiles ← requiredFiles d
  let groups ← r.groups d
  let conditionalFiles ← r.conditionalFiles d
  return { version := r.grammar.version, name, image, requirements, requiredFiles, groups,
           conditionalFiles }

end Reader

/-- The document with a source, its elements nested at most `limit` deep. -/
def readDocument (limit : Nat) (source : String) : Except ConfigError Document :=
  (Document.parse limit source).mapError .document

/-- The document in a file, given its bytes, if the file could be read.
    Documents are in UTF-8. -/
def loadDocument (path : String) (bytes : Option ByteArray) : Except ConfigError Document :=
  match bytes.bind String.fromUTF8? with
  | none        => .error (.unreadableFile path)
  | some source => readDocument Document.defaultDepthLimit source

/-- The package that a document describes, read with the grammar it declares
    and default options. -/
def Package.ofDocument (d : Document) : Except ConfigError Package := do
  (← Reader.forDocument d {}).package d

/-- The package that a source describes. -/
def Package.parse (source : String) : Except ConfigError Package := do
  Package.ofDocument (← readDocument Document.defaultDepthLimit source)

/-- The package in a file, given its bytes, if the file could be read. -/
def Package.load (path : String) (bytes : Option ByteArray) : Except ConfigError Package := do
  Package.ofDocument (← loadDocument path bytes)

end ModInstall
