import ModInstall.Json.Reader
import ModInstall.Json.Writer
import ModInstall.Text.Numeral

/-! # Decoding JSON

    A `Decoder` reads a value of some type off a JSON value, or refuses it.  It
    is told how many levels of arrays and objects it may still enter, because
    texts from strangers are read with a bound (`Decoder.ofText?`); a part that
    no one asks for is not entered and has no bound.

    An object is read by its known keys.  Each may occur once; other keys are
    passed over.  An array may stand for it that gives the values of the keys
    in their order, and leaves out the last ones at most. -/

namespace ModInstall.Json

/-- Reads a value, entering at most so many levels of arrays and objects. -/
abbrev Decoder (α : Type) := Nat → Json → Option α

/-- The levels that the reading of a text may enter. -/
def maxNesting : Nat := 127

/-- The keys of an object that has been entered, with some levels left. -/
structure Fields where
  room    : Nat
  entries : List (String × Json)

/-- Whether none of some keys occurs twice. -/
def occurOnce (keys : List String) (entries : List (String × Json)) : Bool :=
  keys.all fun k => (entries.filter (·.1 == k)).length ≤ 1

/-- Enters an object with known keys, or an array of their values. -/
def fields (known : List String) : Decoder Fields
  | room + 1, .object es => if occurOnce known es then some ⟨room, es⟩ else none
  | room + 1, .array vs  =>
      if vs.length ≤ known.length then some ⟨room, known.zip vs⟩ else none
  | _, _                 => none

namespace Fields

variable {α : Type}

/-- The value of a key that has to be there. -/
def get (f : Fields) (key : String) (d : Decoder α) : Option α :=
  (f.entries.lookup key).bind (d f.room)

/-- The value of a key, or else a default. -/
def getD (f : Fields) (key : String) (default : α) (d : Decoder α) : Option α :=
  match f.entries.lookup key with
  | none   => some default
  | some v => d f.room v

end Fields

namespace Decoder

variable {α β : Type}

/-- The value read off a JSON value, whatever its nesting. -/
def ofValue? (d : Decoder α) (v : Json) : Option α :=
  d v.nesting v

/-- The value read off a JSON text. -/
def ofText? (d : Decoder α) (text : String) : Option α :=
  (read? text).bind (d maxNesting)

/-- Reads a string. -/
def string : Decoder String
  | _, .string s => some s
  | _, _         => none

/-- Reads a truth. -/
def bool : Decoder Bool
  | _, .bool b => some b
  | _, _       => none

/-- Reads a whole number of 32 bits. -/
def int32 : Decoder Int32
  | _, .int n => Text.int32OfInt? n
  | _, _      => none

/-- Reads the items of an array. -/
def list (d : Decoder α) : Decoder (List α)
  | room + 1, .array vs => vs.mapM (d room)
  | _, _                => none

/-- Reads an array of two items. -/
def pair (d : Decoder α) (e : Decoder β) : Decoder (α × β)
  | room + 1, .array [v, w] => do return (← d room v, ← e room w)
  | _, _                    => none

/-- Reads a value, or null. -/
def nullable (d : Decoder α) : Decoder (Option α)
  | _, .null    => some none
  | room, v     => (d room v).map some

/-- Reads the values of an object whose keys are data. -/
def entries (d : Decoder α) : Decoder (List (String × α))
  | room + 1, .object es => es.mapM fun e => do return (e.1, ← d room e.2)
  | _, _                 => none

/-- Reads a name, given as a string or as the only key of an object whose value
    is null. -/
def named (ofName? : String → Option α) : Decoder α
  | _, .string s                 => ofName? s
  | _ + 1, .object [(s, .null)]  => ofName? s
  | _, _                         => none

/-- Reads what a function makes of a string. -/
def parsed (parse? : String → Option α) : Decoder α
  | _, .string s => parse? s
  | _, _         => none

end Decoder

end ModInstall.Json
