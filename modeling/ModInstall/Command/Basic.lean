import ModInstall.Command.Environment
import ModInstall.InstallState.Json
import ModInstall.Package.Reader
import ModInstall.Report.Json
import ModInstall.Report.Text

/-! # The command

    The command reads a configuration and, if one is named, a state, and writes
    the report on the package.  `Command.run` is all of it but the reading of
    files and variables: what it finds there is given to it as `Surroundings`.
    It fails in one of five places, each with a line of its own. -/

namespace ModInstall

/-- What the command is asked to do. -/
structure Command where
  config     : String
  state      : Option String := none
  packageDir : Option String := none
  selected   : List String := []
  accepted   : List String := []
  json       : Bool := false

/-- What the command finds: the files, and the variables of the environment. -/
structure Surroundings where
  read        : String → Except ReadFailure ByteArray
  environment : String → Option String

/-- The place where the command fails. -/
inductive CommandError
  | load (path : String)
  | grammar
  | parse (path : String)
  | readState (path : String)
  | badState (path : String)
deriving DecidableEq

/-- The wording of a failed command. -/
def CommandError.message : CommandError → String
  | .load path      => "Failed to load " ++ path
  | .grammar        => "Failed to select a configuration grammar"
  | .parse path     => "Failed to parse " ++ path
  | .readState path => "Failed to read state file " ++ path
  | .badState path  => "Invalid state file " ++ path

namespace Surroundings

/-- The bytes of a file, if it can be read. -/
def bytes? (s : Surroundings) (path : String) : Option ByteArray :=
  (s.read path).toOption

/-- The text of a file, if it can be read and is in UTF-8. -/
def text? (s : Surroundings) (path : String) : Option String :=
  (s.bytes? path).bind String.fromUTF8?

/-- The name of the variable that holds the version to assume where a document
    declares none. -/
def fallbackVariable : String := "FOMOD_FALLBACK_VERSION"

/-- The name of the environment file. -/
def environmentFile : String := ".env"

/-- The version to assume where a document declares none. -/
def fallbackVersion (s : Surroundings) : Option String :=
  Environment.lookup s.environment (s.text? environmentFile) fallbackVariable

end Surroundings

namespace Command

/-- The loader of the images. -/
def images (c : Command) (s : Surroundings) : Image.Loader :=
  match c.packageDir with
  | none     => Image.Loader.pathOnly
  | some dir => Image.Loader.directory dir s.read

/-- The state to start from. -/
def initialState (c : Command) (s : Surroundings) : Except CommandError InstallState :=
  match c.state with
  | none      => .ok .empty
  | some path =>
      match s.text? path with
      | none      => .error (.readState path)
      | some text =>
          match Json.Decoder.ofText? InstallState.decoder text with
          | none       => .error (.badState path)
          | some state => .ok state

/-- The report on the package. -/
def report (c : Command) (s : Surroundings) : Except CommandError Report := do
  let document ← (loadDocument c.config (s.bytes? c.config)).mapError fun _ => .load c.config
  let options : Options := { fallbackVersion := s.fallbackVersion }
  let reader ← (Reader.forDocument document options).mapError fun _ => .grammar
  let reader := { reader with extension := Extension.accepting c.accepted, images := c.images s }
  let package ← (reader.package document).mapError fun _ => .parse c.config
  let state ← c.initialState s
  return Report.build package state c.selected

/-- What the command writes. -/
def run (c : Command) (s : Surroundings) : Except CommandError String :=
  (c.report s).map fun r => if c.json then r.toJson.pretty ++ "\n" else r.text

end Command

end ModInstall
