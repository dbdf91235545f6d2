/-! # JSON values

    The values of JSON as installers exchange them.  Objects keep their entries
    as written, repeated keys included.  Numbers are integers, or decimals kept
    as their text: no decimal is ever a value that is asked for.

    Some texts are well formed and still stand for no value: a number beyond
    every double, a string with half of a surrogate pair.  They are read as
    `unreadable`, which hurts only a reader that looks at it. -/

namespace ModInstall

/-- A JSON value. -/
inductive Json
  | null
  | bool (truth : Bool)
  | int (n : Int)
  /-- A number with a fraction or an exponent, or `-0`, as written. -/
  | decimal (text : String)
  | string (text : String)
  | array (items : List Json)
  | object (entries : List (String × Json))
  /-- A well-formed text that stands for no value. -/
  | unreadable

namespace Json

mutual

/-- How many arrays and objects lie inside each other at most. -/
def nesting : Json → Nat
  | .array items    => 1 + nestingItems items
  | .object entries => 1 + nestingEntries entries
  | _               => 0

/-- The deepest nesting among some items. -/
def nestingItems : List Json → Nat
  | []      => 0
  | v :: vs => max (nesting v) (nestingItems vs)

/-- The deepest nesting among the values of some entries. -/
def nestingEntries : List (String × Json) → Nat
  | []           => 0
  | (_, v) :: es => max (nesting v) (nestingEntries es)

end

mutual

/-- Whether nothing in a value is unreadable. -/
def isReadable : Json → Bool
  | .unreadable     => false
  | .array items    => areReadable items
  | .object entries => entriesReadable entries
  | _               => true

/-- Whether nothing in some items is unreadable. -/
def areReadable : List Json → Bool
  | []      => true
  | v :: vs => isReadable v && areReadable vs

/-- Whether nothing in the values of some entries is unreadable. -/
def entriesReadable : List (String × Json) → Bool
  | []           => true
  | (_, v) :: es => isReadable v && entriesReadable es

end

/-- Whether a value can be read as a whole with `room` levels to go. -/
def fits (room : Nat) (v : Json) : Bool :=
  v.nesting ≤ room && v.isReadable

/-- An array of pairs of strings. -/
def ofPairs (pairs : List (String × String)) : Json :=
  .array (pairs.map fun p => .array [.string p.1, .string p.2])

end Json

end ModInstall
