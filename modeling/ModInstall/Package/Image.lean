import ModInstall.Path

/-! # Images

    A package and its plugins may name an image by a path.  A `Loader` turns
    the path into an image: it may keep the path alone, or read the file below
    the directory of the package.  Paths are those of the package's author and
    may use either kind of slash; one that would leave the directory finds
    nothing. -/

namespace ModInstall

/-- Bytes are compared by core's own procedure, whatever other there may be. -/
instance decEqBytes : DecidableEq ByteArray := ByteArray.instDecidableEq

/-- An image: the path as the package writes it, and the bytes of the file if
    it was read. -/
structure Image where
  path  : String
  bytes : Option ByteArray := none
deriving DecidableEq

/-- Why an image cannot be had. -/
inductive ImageError
  /-- There is no such file. -/
  | notFound (path : String)
  /-- There is something, but it cannot be read. -/
  | unreadable (path : String)
deriving DecidableEq

/-- The wording of a missing image. -/
def ImageError.message : ImageError → String
  | .notFound path   => "Image not found: " ++ path
  | .unreadable path => "Failed to read image '" ++ path ++ "'"

/-- Why a file gives no bytes. -/
inductive ReadFailure
  | absent
  | unreadable
deriving DecidableEq

namespace Image

/-- What turns the path of an image into the image. -/
abbrev Loader := String → Except ImageError Image

/-- The loader that reads nothing. -/
def Loader.pathOnly : Loader := fun path => .ok ⟨path, none⟩

/-- An image path with `/` in the place of every `\`. -/
def withSlashes (path : String) : String :=
  String.ofList (path.toList.map fun c => if c = '\\' then '/' else c)

/-- Goes one part of an image path on from `directory`.  Only a name leads on;
    nothing leads up or away. -/
def follow (directory : String) : Path.Part → Option String
  | .name name     => some (Path.push directory name)
  | .here          => some directory
  | .root | .above => none

/-- The file below `root` that an image path names, if it stays below. -/
def resolve (root path : String) : Option String :=
  (Path.parts (withSlashes path)).foldlM follow root

/-- The loader that reads the files below a directory. -/
def Loader.directory (root : String) (read : String → Except ReadFailure ByteArray) : Loader :=
  fun path =>
    match resolve root path with
    | none      => .error (.notFound path)
    | some file =>
        match read file with
        | .ok bytes          => .ok ⟨path, some bytes⟩
        | .error .absent     => .error (.notFound file)
        | .error .unreadable => .error (.unreadable file)

/-- One character of a quoted text. -/
def quotedChar (c : Char) : String :=
  if c = '"' then "\\\""
  else if c = '\\' then "\\\\"
  else if c = '\n' then "\\n"
  else if c = '\r' then "\\r"
  else if c = '\t' then "\\t"
  else if c.toNat = 0 then "\\0"
  else if c.toNat < 0x20 ∨ 0x7F ≤ c.toNat ∧ c.toNat < 0xA0 then
    "\\u\x7b" ++ String.ofList (Nat.toDigits 16 c.toNat) ++ "\x7d"
  else String.singleton c

/-- A one-line description for logs: the path in quotes, and how many bytes
    were read, if any. -/
def describe (image : Image) : String :=
  let count := match image.bytes with
    | none       => "None"
    | some bytes => "Some(" ++ Nat.repr bytes.size ++ ")"
  "ImageHandle \x7b path: \"" ++ String.join (image.path.toList.map quotedChar) ++ "\", bytes: "
    ++ count ++ " \x7d"

end Image

end ModInstall
