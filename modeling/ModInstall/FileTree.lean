import ModInstall.Package.Image

/-! # File trees

    The files below a directory, held in memory: a package that has been
    unpacked, or the files that a command needs.  Reading follows a path name
    by name.  It fails as a disk would: nothing is there, or something is there
    that is no file, or a name is one that no disk can hold. -/

namespace ModInstall

/-- The files and directories below a directory, by the names on the way to
    them.  A directory that holds something need not be listed. -/
structure FileTree where
  files       : List (List String × ByteArray) := []
  directories : List (List String) := []

namespace FileTree

/-- The names on the way along a path. -/
def names (path : String) : List String :=
  Path.segments (· == '/') path

/-- Adds a file, or, under a path that ends in a slash, a directory.  A later
    file of the same path counts. -/
def add (t : FileTree) (path : String) (bytes : ByteArray) : FileTree :=
  if path.toList.getLast? = some '/' then { t with directories := names path :: t.directories }
  else { t with files := (names path, bytes) :: t.files }

/-- Whether the names lead to a directory. -/
def isDirectory (t : FileTree) (path : List String) : Bool :=
  path.isEmpty || t.directories.any path.isPrefixOf
    || t.files.any fun f => path.isPrefixOf f.1 && f.1.length != path.length

/-- The length of the longest name that a directory can hold, in bytes. -/
def maxNameLength : Nat := 255

/-- The length at which a path is too long, in bytes. -/
def maxPathLength : Nat := 4096

/-- Reads on behind the names `done`, which lead to a directory. -/
def readBelow (t : FileTree) (done : List String) : List String → Except ReadFailure ByteArray
  | []        => .error .unreadable
  | name :: r =>
      let here := done ++ [name]
      if maxNameLength < name.utf8ByteSize then .error .unreadable
      else if t.isDirectory here then readBelow t here r
      else
        match t.files.lookup here, r with
        | none,       _      => .error .absent
        | some bytes, []     => .ok bytes
        | some _,     _ :: _ => .error .unreadable

/-- The bytes of the file with a path. -/
def read (t : FileTree) (path : String) : Except ReadFailure ByteArray :=
  if path.toList.contains '\x00' then .error .unreadable
  else if maxPathLength ≤ path.utf8ByteSize then .error .unreadable
  else t.readBelow [] (names path)

end FileTree

end ModInstall
