import ModInstall.Text.Split

/-! # Paths

    A path of the file system is a text with `/` between its segments.  A
    segment that is empty leads nowhere, and neither does `.`, but a path may
    say with a `.`  in front that it starts where one is.  What `..`  leads to
    depends on the disk, so it stays as it is.  A path that begins with `/`
    starts at the root, and takes the place of whatever it is pushed onto. -/

namespace ModInstall.Path

/-- The segments of a path between the characters that `sep` picks, without
    those that lead nowhere. -/
def segments (sep : Char → Bool) (path : String) : List String :=
  (Text.piecesOf sep path).filter fun s => s ≠ "" ∧ s ≠ "."

/-- A part of a path. -/
inductive Part
  /-- The root of the file system, where a path begins with `/`. -/
  | root
  /-- The directory that one is in, where a path begins with `.`. -/
  | here
  /-- The directory above. -/
  | above
  /-- What has this name in a directory. -/
  | name (name : String)
deriving DecidableEq

/-- The part that a segment stands for. -/
def Part.ofSegment (segment : String) : Part :=
  if segment = ".." then .above else .name segment

/-- What a path starts from, if it says so. -/
def start : List Char → List Part
  | '/' :: _                => [.root]
  | ['.'] | '.' :: '/' :: _ => [.here]
  | _                       => []

/-- The parts of a path. -/
def parts (path : String) : List Part :=
  start path.toList ++ (segments (· == '/') path).map .ofSegment

/-- A path continued by another one, unless that starts at the root. -/
def push (path next : String) : String :=
  if next.toList.head? = some '/' then next
  else if path = "" ∨ path.toList.getLast? = some '/' then path ++ next
  else path ++ "/" ++ next

end ModInstall.Path
