import ModInstall.Text.Blank
import ModInstall.Text.Split

/-! # Environment files

    A file `.env` beside a command gives values to variables: one assignment
    `NAME=VALUE` a line, with blank lines and comments behind `#` between them.
    A value may stand in quotes, and a comment may follow it after a space.
    The first line of any other form ends the file: what stands above it
    counts, what stands below it does not.  A variable that the environment has
    already keeps its value, and of two assignments to one name the first
    counts. -/

namespace ModInstall.Environment

/-- Where the reading of a value is: outside quotes, inside a pair of the
    quotes `'` or `"`, behind a backslash (in double quotes or not), or behind
    the space that ends the value. -/
inductive ValuePosition where
  | plain
  | single
  | double
  | escape (quoted : Bool)
  | done
deriving DecidableEq, Repr

/-- The character that a backslash and `c` stand for, if they may stand
    together. -/
def escaped? (c : Char) : Option Char :=
  if c = 'n' then some '\n'
  else if ['\\', '\'', '"', '$', ' '].contains c then some c
  else none

/-- Reads a value.  There is none when a quote stays open or more than a
    comment follows the space that ends the value. -/
def value? : ValuePosition → List Char → Option (List Char)
  | .single,      [] => none
  | .double,      [] => none
  | .escape true, [] => none
  | _,            [] => some []
  | .done, c :: cs =>
      if c = ' ' ∨ c = '\t' then value? .done cs
      else if c = '#' then some []
      else none
  | .escape quoted, c :: cs => do
      let e ← escaped? c
      let rest ← value? (if quoted then .double else .plain) cs
      some (e :: rest)
  | .single, c :: cs =>
      if c = '\'' then value? .plain cs else (value? .single cs).map (c :: ·)
  | .double, c :: cs =>
      if c = '"' then value? .plain cs
      else if c = '\\' then value? (.escape true) cs
      else (value? .double cs).map (c :: ·)
  | .plain, c :: cs =>
      if c = '\'' then value? .single cs
      else if c = '"' then value? .double cs
      else if c = '\\' then value? (.escape false) cs
      else if c = ' ' ∨ c = '\t' then value? .done cs
      else (value? .plain cs).map (c :: ·)

/-- Whether a name may start with a character. -/
def startsName (c : Char) : Bool := c.isAlpha || c == '_'

/-- Whether a name may go on with a character. -/
def continuesName (c : Char) : Bool := c.isAlphanum || c == '_' || c == '.'

/-- The name at the start of a line, and what follows it and its blanks. -/
def name? (line : List Char) : Option (List Char × List Char) :=
  match line with
  | c :: _ =>
      if startsName c then
        some (line.takeWhile continuesName, (line.dropWhile continuesName).dropWhile Text.isBlank)
      else none
  | [] => none

/-- The value behind the sign `=`, at which the line must be. -/
def assigned? : List Char → Option (List Char)
  | '=' :: cs =>
      match cs.dropWhile Text.isBlank with
      | '#' :: _ => some []
      | cs       => value? .plain cs
  | _ => none

/-- The assignment on a line that is neither empty nor a comment.  The word
    `export` may stand before the name. -/
def assignment? (line : List Char) : Option (String × String) := do
  let (name, rest) ← name? line
  let (name, rest) ←
    if name = "export".toList ∧ rest.head? ≠ some '=' then name? rest else some (name, rest)
  let value ← assigned? rest
  some (String.ofList name, String.ofList value)

/-- The assignments on some lines, up to the first line that is not of the
    form. -/
def assignmentsOf : List (List Char) → List (String × String)
  | []            => []
  | line :: lines =>
      match Text.trim line with
      | [] | '#' :: _ => assignmentsOf lines
      | cs            =>
          match assignment? cs with
          | some a => a :: assignmentsOf lines
          | none   => []

/-- The assignments of a file, in order. -/
def assignments (file : String) : List (String × String) :=
  assignmentsOf (Text.pieces (· == '\n') file.toList)

/-- The value of a variable, given the environment and the text of a file, if
    there is one. -/
def lookup (environment : String → Option String) (file : Option String) (name : String) :
    Option String :=
  (environment name).or ((file.map assignments).getD [] |>.lookup name)

end ModInstall.Environment
