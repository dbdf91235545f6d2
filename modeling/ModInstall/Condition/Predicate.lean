import ModInstall.Text.Lowercase
import ModInstall.Version

/-! # Predicates

    The atoms of a condition: what a package may ask of the state it is
    installed into.  A predicate is a question only; `Facts`
    (`Condition.Evaluation`) holds the answers. -/

namespace ModInstall

/-- The state of a plugin file in the game. -/
inductive FileState
  | missing
  | inactive
  | active
deriving DecidableEq

namespace FileState

/-- The name of a file state. -/
def name : FileState → String
  | .missing  => "Missing"
  | .inactive => "Inactive"
  | .active   => "Active"

/-- All file states. -/
def all : List FileState := [.missing, .inactive, .active]

/-- The file state with a name. -/
def ofName? (text : String) : Option FileState :=
  all.find? (·.name == text)

end FileState

/-- A question that only the host of the installer can answer, kept as it stood
    in the document. -/
structure ForeignTest where
  kind       : String
  attributes : List (String × String) := []
  text       : String := ""
deriving DecidableEq

/-- The value of the first attribute with this name. -/
def ForeignTest.attribute? (t : ForeignTest) (key : String) : Option String :=
  t.attributes.lookup key

/-- An atomic condition. -/
inductive Predicate
  /-- The game has at least this version. -/
  | gameVersion (wanted : Version)
  /-- The mod manager has at least this version. -/
  | managerVersion (wanted : Version)
  /-- The file is in this state. -/
  | file (name : String) (state : FileState)
  /-- The flag has been set to this value. -/
  | flag (name value : String)
  /-- The host says so. -/
  | foreign (test : ForeignTest)
deriving DecidableEq

namespace Predicate

/-- The predicate on the state of a file, its name in lower case. -/
def fileIs (file : String) (state : FileState) : Predicate :=
  .file (Text.lowercase file) state

/-- The text of a predicate. -/
def display : Predicate → String
  | .gameVersion wanted    => "game version >= " ++ wanted.display
  | .managerVersion wanted => "manager version >= " ++ wanted.display
  | .file name state       => name ++ " is " ++ state.name
  | .flag name value       => "flag " ++ name ++ " == '" ++ value ++ "'"
  | .foreign test          => test.kind

end Predicate

end ModInstall
