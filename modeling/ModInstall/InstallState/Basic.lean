import ModInstall.Package.Basic
import ModInstall.Table

/-! # The state of an installation

    What is known while a package is being installed: the versions of game and
    manager, the states of files, the flags that chosen plugins have set, and
    the verdicts of the host on foreign tests.  The last write to a name
    counts.  Files are looked up without regard to case, flags and verdicts
    exactly. -/

namespace ModInstall

/-- The state of an installation.  The keys of `files` are in lower case. -/
structure InstallState where
  gameVersion    : Option Version := none
  managerVersion : Option Version := none
  files          : Table FileState := .empty
  flags          : Table String := .empty
  verdicts       : Table Bool := .empty

namespace InstallState

/-- The state in which nothing is known. -/
def empty : InstallState := {}

/-- The state of a file; one that nothing is known of is missing. -/
def fileState (s : InstallState) (file : String) : FileState :=
  (s.files.find? (Text.lowercase file)).getD .missing

/-- The value of a flag. -/
def flagValue (s : InstallState) (flag : String) : Option String :=
  s.flags.find? flag

/-- The verdict of the host on the foreign tests of a kind. -/
def verdict (s : InstallState) (kind : String) : Option Bool :=
  s.verdicts.find? kind

/-- What the state says about the atoms of conditions. -/
def facts (s : InstallState) : Facts where
  gameVersion    := s.gameVersion
  managerVersion := s.managerVersion
  fileState      := s.fileState
  flagValue      := s.flagValue
  verdict test   := s.verdict test.kind

/-- Sets the state of a file. -/
def setFile (s : InstallState) (file : String) (state : FileState) : InstallState :=
  { s with files := s.files.set (Text.lowercase file) state }

/-- Sets a flag. -/
def setFlag (s : InstallState) (flag value : String) : InstallState :=
  { s with flags := s.flags.set flag value }

/-- Takes a flag out: the value that it had, and the state that is left. -/
def takeFlag (s : InstallState) (flag : String) : Option String × InstallState :=
  let (value, flags) := s.flags.take flag
  (value, { s with flags })

/-- Takes the value of a flag away. -/
def clearFlag (s : InstallState) (flag : String) : InstallState :=
  (s.takeFlag flag).2

/-- Sets the version of the game. -/
def setGameVersion (s : InstallState) (version : Version) : InstallState :=
  { s with gameVersion := some version }

/-- Sets the version of the mod manager. -/
def setManagerVersion (s : InstallState) (version : Version) : InstallState :=
  { s with managerVersion := some version }

/-- Sets the verdict on the foreign tests of a kind. -/
def setVerdict (s : InstallState) (kind : String) (truth : Bool) : InstallState :=
  { s with verdicts := s.verdicts.set kind truth }

/-- Sets the flags of a plugin that has been chosen, one after the other. -/
def choose (s : InstallState) (plugin : Plugin) : InstallState :=
  plugin.flags.foldl (fun s f => s.setFlag f.name f.value) s

/-- The table of file states that entries with keys of any case make, set one
    after the other. -/
def filesOfEntries (entries : List (String × FileState)) : Table FileState :=
  .ofEntries (entries.map fun e => (Text.lowercase e.1, e.2))

end InstallState

end ModInstall
