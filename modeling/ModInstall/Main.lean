import ModInstall.Command.Basic

/-! # The command line

    Reads the arguments, and the files and variables that the command may ask
    for, runs the command, and writes what it says.  The images of a package
    are known only once its document is read: the files that any `path` in the
    document could name are read beforehand, and the command takes what it
    needs. -/

namespace ModInstall.CommandLine

/-- What an argument that takes a value does to the command. -/
def withValue? (c : Command) (name value : String) : Option Command :=
  if name = "--state" then some { c with state := some value }
  else if name = "--package-dir" then some { c with packageDir := some value }
  else if name = "--select" then some { c with selected := c.selected ++ [value] }
  else if name = "--accept" then some { c with accepted := c.accepted ++ [value] }
  else none

/-- Whether an argument only asks for more log lines. -/
def isVerbosity (arg : String) : Bool :=
  arg == "--verbose" || match arg.toList with
    | '-' :: 'v' :: vs => vs.all (· == 'v')
    | _                => false

/-- The name and the value of an argument of the form `--name=value`. -/
def splitArgument? (arg : String) : Option (String × String) :=
  match arg.toList.dropWhile (· != '=') with
  | []         => none
  | _ :: value => some (String.ofList (arg.toList.takeWhile (· != '=')), String.ofList value)

/-- What has been read of the arguments: the command, whether the path of the
    configuration has come, and the argument that waits for its value. -/
structure Arguments where
  command   : Command := { config := "" }
  hasConfig : Bool := false
  pending   : Option String := none

/-- Reads one argument. -/
def Arguments.step (a : Arguments) (arg : String) : Option Arguments :=
  match a.pending with
  | some name =>
      (withValue? a.command name arg).map fun c => { a with command := c, pending := none }
  | none =>
      if arg = "--json" then some { a with command := { a.command with json := true } }
      else if isVerbosity arg then some a
      else if ['-', '-'].isPrefixOf arg.toList then
        match splitArgument? arg with
        | some (name, value) =>
            (withValue? a.command name value).map fun c => { a with command := c }
        | none => some { a with pending := some arg }
      else if a.hasConfig then none
      else some { a with command := { a.command with config := arg }, hasConfig := true }

/-- The command that the arguments of the program ask for. -/
def parse? (args : List String) : Option Command := do
  let a ← args.foldlM Arguments.step {}
  if a.hasConfig && a.pending.isNone then some a.command else none

/-- The usage line. -/
def usage : String :=
  "Usage: [--state STATE] [--package-dir DIR] [--select PLUGIN]... [--accept KIND]... [--json] "
    ++ "CONFIG"

mutual

/-- The values of all attributes `path` in an element. -/
def pathsIn : Markup.Element → List String
  | ⟨_, attributes, children, _, _⟩ =>
      (attributes.lookup "path").toList ++ pathsInList children

/-- The values of all attributes `path` in some elements. -/
def pathsInList : List Markup.Element → List String
  | []      => []
  | e :: es => pathsIn e ++ pathsInList es

end

/-- The files that the command may read as images, given the bytes of its
    configuration. -/
def imageFiles (c : Command) (config : Option ByteArray) : List String :=
  match c.packageDir, loadDocument c.config config with
  | some dir, .ok document => (pathsIn document.root).filterMap (Image.resolve dir)
  | _,        _            => []

/-- Reads a file. -/
def readFile (path : String) : IO (Except ReadFailure ByteArray) := do
  try
    return .ok (← IO.FS.readBinFile path)
  catch e =>
    match e with
    | .noFileOrDirectory _ _ _ => return .error .absent
    | _                        => return .error .unreadable

/-- Reads some files. -/
def readFiles (paths : List String) : IO (List (String × Except ReadFailure ByteArray)) :=
  paths.mapM fun path => do return (path, ← readFile path)

/-- Runs the command that the arguments ask for.  The result is the exit
    code. -/
def run (args : List String) : IO UInt32 := do
  match parse? args with
  | none =>
      IO.eprintln usage
      return 2
  | some c =>
      let first ← readFiles ([c.config, Surroundings.environmentFile] ++ c.state.toList)
      let config := (first.lookup c.config).bind Except.toOption
      let files := first ++ (← readFiles (imageFiles c config))
      let fallback ← IO.getEnv Surroundings.fallbackVariable
      let found : Surroundings := {
        read        := fun path => (files.lookup path).getD (.error .absent)
        environment := fun name => if name = Surroundings.fallbackVariable then fallback else none }
      match c.run found with
      | .ok text =>
          IO.print text
          return 0
      | .error e =>
          IO.eprintln ("Error: " ++ e.message)
          return 1

end ModInstall.CommandLine

/-- The program. -/
def main (args : List String) : IO UInt32 :=
  ModInstall.CommandLine.run args
