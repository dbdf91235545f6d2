import ModInstall.Package.Json
import ModInstall.Report.Basic

/-! # Reports in JSON

    The fields of a report as an object.  What has been evaluated is an object
    with one key: `value` for the value, or `error` for the reason why there is
    none. -/

namespace ModInstall

/-- A value, or the reason why there is none, as JSON. -/
def EvaluationError.resultToJson {α : Type} (encode : α → Json) : Except EvaluationError α → Json
  | .ok a    => .object [("value", encode a)]
  | .error e => .object [("error", .string e.message)]

/-- One plugin of a report as JSON. -/
def PluginReport.toJson (p : PluginReport) : Json :=
  .object [
    ("group", .string p.group),
    ("name", .string p.name),
    ("pluginType", EvaluationError.resultToJson (fun type => .string type.name) p.type)]

/-- A report as JSON. -/
def Report.toJson (r : Report) : Json :=
  .object [
    ("name", .string r.name),
    ("version", .string r.version),
    ("requirements", EvaluationError.resultToJson .bool r.requirements),
    ("plugins", Json.ofList PluginReport.toJson r.plugins),
    ("conditionalFiles",
      EvaluationError.resultToJson (Json.ofList FileEntry.toJson) r.conditionalFiles)]

end ModInstall
