import ModInstall.Json.Value

/-! # Writing JSON

    Two ways to write a value: `compact` without any white space, and `pretty`
    with one entry a line, two spaces for each level, where empty arrays and
    objects stay on one line.  Strings are written as they are but for quotes,
    backslashes and control characters. -/

namespace ModInstall.Json

/-- The lower-case hexadecimal digit with a value. -/
def hexDigit (n : Nat) : Char :=
  if n < 10 then Char.ofNat ('0'.toNat + n) else Char.ofNat ('a'.toNat + (n - 10))

/-- A character inside quotes. -/
def escape (c : Char) : List Char :=
  if c = '"' then ['\\', '"']
  else if c = '\\' then ['\\', '\\']
  else if c = '\x08' then ['\\', 'b']
  else if c = '\t' then ['\\', 't']
  else if c = '\n' then ['\\', 'n']
  else if c = '\x0c' then ['\\', 'f']
  else if c = '\r' then ['\\', 'r']
  else if c.toNat < 0x20 then
    ['\\', 'u', '0', '0', hexDigit (c.toNat / 16), hexDigit (c.toNat % 16)]
  else [c]

/-- A string in quotes. -/
def quoted (s : String) : List Char :=
  '"' :: s.toList.flatMap escape ++ ['"']

/-- A whole number. -/
def integer (n : Int) : List Char :=
  if n < 0 then '-' :: Nat.toDigits 10 n.natAbs else Nat.toDigits 10 n.natAbs

/-- A value that is neither an array nor an object. -/
def scalar : Json → List Char
  | .null         => ['n', 'u', 'l', 'l']
  | .bool true    => ['t', 'r', 'u', 'e']
  | .bool false   => ['f', 'a', 'l', 's', 'e']
  | .int n        => integer n
  | .decimal text => text.toList
  | .string s     => quoted s
  | _             => ['n', 'u', 'l', 'l']

mutual

/-- A value without white space. -/
def write : Json → List Char
  | .array []              => ['[', ']']
  | .array (v :: vs)       => '[' :: write v ++ writeItems vs ++ [']']
  | .object []             => ['\x7b', '\x7d']
  | .object ((k, v) :: es) => '\x7b' :: quoted k ++ ':' :: write v ++ writeEntries es ++ ['\x7d']
  | v                      => scalar v

/-- Items that follow another. -/
def writeItems : List Json → List Char
  | []      => []
  | v :: vs => ',' :: write v ++ writeItems vs

/-- Entries that follow another. -/
def writeEntries : List (String × Json) → List Char
  | []           => []
  | (k, v) :: es => ',' :: quoted k ++ ':' :: write v ++ writeEntries es

end

/-- The beginning of a line at a level. -/
def newLine (level : Nat) : List Char :=
  '\n' :: List.replicate (2 * level) ' '

mutual

/-- A value with one entry a line, inside something at a level. -/
def writePretty (level : Nat) : Json → List Char
  | .array []              => ['[', ']']
  | .array (v :: vs)       =>
      '[' :: newLine (level + 1) ++ writePretty (level + 1) v ++ prettyItems (level + 1) vs
        ++ newLine level ++ [']']
  | .object []             => ['\x7b', '\x7d']
  | .object ((k, v) :: es) =>
      '\x7b' :: newLine (level + 1) ++ quoted k ++ ':' :: ' ' :: writePretty (level + 1) v
        ++ prettyEntries (level + 1) es ++ newLine level ++ ['\x7d']
  | v                      => scalar v

/-- Items that follow another, each on a line. -/
def prettyItems (level : Nat) : List Json → List Char
  | []      => []
  | v :: vs => ',' :: newLine level ++ writePretty level v ++ prettyItems level vs

/-- Entries that follow another, each on a line. -/
def prettyEntries (level : Nat) : List (String × Json) → List Char
  | []           => []
  | (k, v) :: es =>
      ',' :: newLine level ++ quoted k ++ ':' :: ' ' :: writePretty level v
        ++ prettyEntries level es

end

/-- The text of a value, without white space. -/
def compact (v : Json) : String :=
  String.ofList v.write

/-- The text of a value, with one entry a line. -/
def pretty (v : Json) : String :=
  String.ofList (writePretty 0 v)

end ModInstall.Json
