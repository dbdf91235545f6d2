import ModInstall.Markup.Document
import ModInstall.Package.Image

/-! # Errors of configurations

    Why a configuration gives no package.  Documents are supposed to have been
    validated before, so most of these mean that the document and the grammar
    disagree (`isInternal`); none of them is passed over. -/

namespace ModInstall

/-- The values that an attribute can fail to be. -/
inductive ValueKind
  | operator
  | fileState
  | pluginType
  | groupType
  | priority
  | boolean
deriving DecidableEq

/-- The word for a kind of value. -/
def ValueKind.name : ValueKind → String
  | .operator   => "DependencyOperator"
  | .fileState  => "ModFileState"
  | .pluginType => "PluginType"
  | .groupType  => "GroupType"
  | .priority   => "priority"
  | .boolean    => "boolean"

/-- Why a configuration gives no package. -/
inductive ConfigError
  /-- The grammar knows no condition or type rule of this name. -/
  | unknownNode (kind : String)
  /-- An entry of a file list is neither a file nor a folder. -/
  | unknownFileNode (kind : String)
  | missingAttribute (node key : String)
  | missingChild (node child : String)
  | badValue (kind : ValueKind) (value : String)
  | badVersion (value : String)
  /-- Groups of conditions nest more than `limit` levels. -/
  | conditionTooDeep (limit : Nat)
  /-- No grammar reads this version of the format. -/
  | unsupportedVersion (version : String)
  /-- The document does not say which version of the format it uses. -/
  | undeclaredVersion
  | document (cause : Markup.DocumentError)
  | unreadableFile (path : String)
  | image (cause : ImageError)
deriving DecidableEq

namespace ConfigError

/-- The wording of an error. -/
def message : ConfigError → String
  | .unknownNode kind =>
      "Invalid dependency node: " ++ kind ++ ". The config file has already been validated "
        ++ "against the schema, so the parser is out of step with it"
  | .unknownFileNode kind => "Invalid file node: " ++ kind
  | .missingAttribute node key =>
      "Node '" ++ node ++ "' is missing required attribute '" ++ key ++ "'"
  | .missingChild node child =>
      "Node '" ++ node ++ "' is missing required child '" ++ child ++ "'"
  | .badValue kind value => "'" ++ value ++ "' is not a valid " ++ kind.name
  | .badVersion value => "Invalid version string '" ++ value ++ "'"
  | .conditionTooDeep limit =>
      "Dependency nesting exceeds the limit of " ++ Nat.repr limit ++ " levels"
  | .unsupportedVersion version => "Unsupported configuration file version: " ++ version
  | .undeclaredVersion => "Configuration file does not declare a schema version"
  | .document (.tooDeep limit) =>
      "Document nesting exceeds the limit of " ++ Nat.repr limit ++ " levels"
  | .document (.markup cause) => "XML error: " ++ cause.message
  | .document (.malformed cause) => "Malformed document: " ++ cause.message
  | .unreadableFile path => "IO error reading '" ++ path ++ "'"
  | .image cause => cause.message

/-- The heading under which logs file an error. -/
def category : ConfigError → String
  | .unknownNode _ | .unknownFileNode _ | .missingAttribute _ _ | .missingChild _ _
  | .badValue _ _ | .badVersion _                   => "invalid_node"
  | .conditionTooDeep _ | .document (.tooDeep _)    => "too_deep"
  | .unsupportedVersion _ | .undeclaredVersion      => "version"
  | .document (.markup _) | .document (.malformed _) => "xml"
  | .unreadableFile _                               => "io"
  | .image _                                        => "image"

/-- Whether an error means that a valid document and its grammar disagree. -/
def isInternal : ConfigError → Bool
  | .unknownNode _ | .unknownFileNode _ | .missingAttribute _ _ | .missingChild _ _
  | .badValue _ _ | .badVersion _ => true
  | _                             => false

end ConfigError

end ModInstall
