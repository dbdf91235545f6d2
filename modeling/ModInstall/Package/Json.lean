import ModInstall.Condition.Json
import ModInstall.Package.Basic

/-! # Packages in JSON

    Each part of a package is an object with one entry for each field, names of
    alternatives are strings, and a type rule is an object whose only key says
    which kind of rule it is.  Of an image only the path is written. -/

namespace ModInstall

open Json (Decoder Fields)

/-- An array of encoded items. -/
def Json.ofList {α : Type} (encode : α → Json) (as : List α) : Json :=
  .array (as.map encode)

namespace Image

/-- An image as JSON. -/
def toJson (image : Image) : Json :=
  .object [("path", .string image.path)]

/-- An image, if there is one, as JSON. -/
def optionToJson : Option Image → Json
  | none       => .null
  | some image => image.toJson

/-- Reads an image, without its bytes. -/
def decoder : Decoder Image := fun room v => do
  let f ← Json.fields ["path"] room v
  return ⟨← f.get "path" .string, none⟩

end Image

/-- Reads a plugin type. -/
def PluginType.decoder : Decoder PluginType :=
  .named PluginType.ofName?

namespace FileEntry

/-- A file entry as JSON. -/
def toJson (e : FileEntry) : Json :=
  .object [
    ("source", .string e.source),
    ("destination", .string e.destination),
    ("kind", .string e.kind.name),
    ("priority", .int e.priority.toInt),
    ("always_install", .bool e.alwaysInstall),
    ("install_if_usable", .bool e.installIfUsable)]

/-- Reads a file entry. -/
def decoder : Decoder FileEntry := fun room v => do
  let f ← Json.fields ["source", "destination", "kind", "priority", "always_install",
    "install_if_usable"] room v
  return {
    source          := ← f.get "source" .string
    destination     := ← f.get "destination" .string
    kind            := ← f.get "kind" (.named FileKind.ofName?)
    priority        := ← f.get "priority" .int32
    alwaysInstall   := ← f.get "always_install" .bool
    installIfUsable := ← f.get "install_if_usable" .bool }

end FileEntry

namespace ConditionFlag

/-- A flag as JSON. -/
def toJson (flag : ConditionFlag) : Json :=
  .object [("name", .string flag.name), ("value", .string flag.value)]

/-- Reads a flag. -/
def decoder : Decoder ConditionFlag := fun room v => do
  let f ← Json.fields ["name", "value"] room v
  return ⟨← f.get "name" .string, ← f.get "value" .string⟩

end ConditionFlag

namespace TypePattern

/-- A type pattern as JSON. -/
def toJson (p : TypePattern) : Json :=
  .object [("plugin_type", .string p.type.name), ("condition", p.condition.toJson)]

/-- Reads a type pattern. -/
def decoder : Decoder TypePattern := fun room v => do
  let f ← Json.fields ["plugin_type", "condition"] room v
  return ⟨← f.get "plugin_type" PluginType.decoder, ← f.get "condition" Requirement.decoder⟩

end TypePattern

namespace TypeRule

/-- A type rule as JSON. -/
def toJson : TypeRule → Json
  | .fixed type                => .object [("Static", .string type.name)]
  | .computed default patterns =>
      .object [("Computed", .object [
        ("default_type", .string default.name),
        ("patterns", Json.ofList TypePattern.toJson patterns)])]

/-- Reads a type rule: the only key says which kind of rule it is. -/
def decoder : Decoder TypeRule
  | room + 1, .object [(kind, v)] =>
      if kind = "Static" then (PluginType.decoder room v).map .fixed
      else if kind = "Computed" then do
        let f ← Json.fields ["default_type", "patterns"] room v
        return .computed (← f.get "default_type" PluginType.decoder)
          (← f.get "patterns" (.list TypePattern.decoder))
      else none
  | _, _ => none

end TypeRule

namespace Plugin

/-- A plugin as JSON. -/
def toJson (p : Plugin) : Json :=
  .object [
    ("name", .string p.name),
    ("description", .string p.description),
    ("image", Image.optionToJson p.image),
    ("type_resolution", p.typeRule.toJson),
    ("files", Json.ofList FileEntry.toJson p.files),
    ("condition_flags", Json.ofList ConditionFlag.toJson p.flags)]

/-- Reads a plugin. -/
def decoder : Decoder Plugin := fun room v => do
  let f ← Json.fields ["name", "description", "image", "type_resolution", "files",
    "condition_flags"] room v
  return {
    name        := ← f.get "name" .string
    description := ← f.get "description" .string
    image       := ← f.getD "image" none (.nullable Image.decoder)
    typeRule    := ← f.get "type_resolution" TypeRule.decoder
    files       := ← f.get "files" (.list FileEntry.decoder)
    flags       := ← f.get "condition_flags" (.list ConditionFlag.decoder) }

end Plugin

namespace PluginGroup

/-- A group of plugins as JSON. -/
def toJson (g : PluginGroup) : Json :=
  .object [
    ("name", .string g.name),
    ("group_type", .string g.type.name),
    ("plugins", Json.ofList Plugin.toJson g.plugins)]

/-- Reads a group of plugins. -/
def decoder : Decoder PluginGroup := fun room v => do
  let f ← Json.fields ["name", "group_type", "plugins"] room v
  return {
    name    := ← f.get "name" .string
    type    := ← f.get "group_type" (.named GroupType.ofName?)
    plugins := ← f.get "plugins" (.list Plugin.decoder) }

end PluginGroup

namespace ConditionalFiles

/-- A pattern of conditional files as JSON. -/
def toJson (c : ConditionalFiles) : Json :=
  .object [
    ("condition", c.condition.toJson),
    ("files", Json.ofList FileEntry.toJson c.files)]

/-- Reads a pattern of conditional files. -/
def decoder : Decoder ConditionalFiles := fun room v => do
  let f ← Json.fields ["condition", "files"] room v
  return {
    condition := ← f.get "condition" Requirement.decoder
    files     := ← f.get "files" (.list FileEntry.decoder) }

end ConditionalFiles

namespace Package

/-- A package as JSON. -/
def toJson (p : Package) : Json :=
  .object [
    ("version", .string p.version),
    ("name", .string p.name),
    ("image", Image.optionToJson p.image),
    ("module_dependencies", p.requirements.toJson),
    ("required_files", Json.ofList FileEntry.toJson p.requiredFiles),
    ("groups", Json.ofList PluginGroup.toJson p.groups),
    ("conditional_file_installs", Json.ofList ConditionalFiles.toJson p.conditionalFiles)]

/-- Reads a package. -/
def decoder : Decoder Package := fun room v => do
  let f ← Json.fields ["version", "name", "image", "module_dependencies", "required_files",
    "groups", "conditional_file_installs"] room v
  return {
    version          := ← f.get "version" .string
    name             := ← f.get "name" .string
    image            := ← f.getD "image" none (.nullable Image.decoder)
    requirements     := ← f.get "module_dependencies" Requirement.decoder
    requiredFiles    := ← f.get "required_files" (.list FileEntry.decoder)
    groups           := ← f.get "groups" (.list PluginGroup.decoder)
    conditionalFiles := ← f.get "conditional_file_installs" (.list ConditionalFiles.decoder) }

end Package

end ModInstall
