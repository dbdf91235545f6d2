import ModInstall.Json.Value

/-! # JSON tokens

    The tokens of JSON text: brackets, braces, commas and colons, strings, and
    the values that stand for themselves.  Strings are decoded here, escapes of
    UTF-16 halves put together; numbers are measured here. -/

namespace ModInstall.Json

/-- A token of JSON text. -/
inductive Token
  | openArray
  | closeArray
  | openObject
  | closeObject
  | comma
  | colon
  /-- A string, or nothing for one that holds half of a surrogate pair. -/
  | string (text : Option String)
  /-- Any other value that is neither array nor object. -/
  | scalar (v : Json)

/-- White space between tokens. -/
def isSpace (c : Char) : Bool :=
  c == ' ' || c == '\t' || c == '\n' || c == '\r'

/-- The value of a hexadecimal digit. -/
def hexDigit? (c : Char) : Option Nat :=
  if c.isDigit then some (c.toNat - '0'.toNat)
  else if 'a' ≤ c ∧ c ≤ 'f' then some (c.toNat - 'a'.toNat + 10)
  else if 'A' ≤ c ∧ c ≤ 'F' then some (c.toNat - 'A'.toNat + 10)
  else none

/-- The UTF-16 unit with four hexadecimal digits. -/
def unit? (a b c d : Char) : Option Nat := do
  return ((← hexDigit? a) * 16 + (← hexDigit? b)) * 256 + (← hexDigit? c) * 16 + (← hexDigit? d)

/-- The character that a letter behind a backslash stands for. -/
def escaped? : Char → Option Char
  | '"'  => some '"'
  | '\\' => some '\\'
  | '/'  => some '/'
  | 'b'  => some '\x08'
  | 'f'  => some '\x0c'
  | 'n'  => some '\n'
  | 'r'  => some '\r'
  | 't'  => some '\t'
  | _    => none

/-- A string that is being read: its characters so far, last character first,
    the first half of a surrogate pair if one has just been read, and whether
    no half has stood alone. -/
structure Piece where
  seen  : List Char := []
  half  : Option Nat := none
  sound : Bool := true

namespace Piece

/-- Adds a character. -/
def put (p : Piece) (c : Char) : Piece :=
  { p with seen := c :: p.seen, sound := p.sound && p.half.isNone }

/-- Adds a UTF-16 unit. -/
def putUnit (p : Piece) (n : Nat) : Piece :=
  match p.half with
  | some h =>
      if 0xDC00 ≤ n ∧ n < 0xE000 then
        { p with
          seen := Char.ofNat (0x10000 + (h - 0xD800) * 0x400 + (n - 0xDC00)) :: p.seen
          half := none }
      else { p with sound := false }
  | none =>
      if 0xD800 ≤ n ∧ n < 0xDC00 then { p with half := some n }
      else if 0xDC00 ≤ n ∧ n < 0xE000 then { p with sound := false }
      else p.put (Char.ofNat n)

/-- The string that has been read, if no half of a pair stands alone in it. -/
def text (p : Piece) : Option String :=
  if p.sound && p.half.isNone then some (String.ofList p.seen.reverse) else none

end Piece

/-- Reads on in a string, up to its closing quote. -/
def readString (p : Piece) : List Char → Option (Option String × List Char)
  | []      => none
  | c :: cs =>
      if c = '"' then some (p.text, cs)
      else if c = '\\' then
        match cs with
        | 'u' :: a :: b :: c :: d :: rest =>
            match unit? a b c d with
            | some n => readString (p.putUnit n) rest
            | none   => none
        | e :: rest =>
            match escaped? e with
            | some ch => readString (p.put ch) rest
            | none    => none
        | [] => none
      else if c.toNat < 0x20 then none
      else readString (p.put c) cs

/-- The least number that rounds to no double. -/
def beyondDoubles : Nat := Nat.pow 2 1024 - Nat.pow 2 970

/-- Whether `m * 10 ^ (up - down)` lies beyond all doubles.  The powers are
    compared by their digits first, so that a huge exponent costs nothing. -/
def isBeyond (m up down : Nat) : Bool :=
  if m = 0 then false
  else
    let size := (Nat.toDigits 10 m).length + up
    if size ≤ 308 + down then false
    else if 310 + down ≤ size then true
    else beyondDoubles * Nat.pow 10 down ≤ m * Nat.pow 10 up

/-- The parts of a number as written. -/
structure Numeral where
  negative : Bool
  whole    : List Char
  fraction : List Char
  exponent : Option (Bool × List Char)

namespace Numeral

/-- The number as written. -/
def text (n : Numeral) : List Char :=
  (if n.negative then ['-'] else []) ++ n.whole
    ++ (if n.fraction.isEmpty then [] else '.' :: n.fraction)
    ++ match n.exponent with
      | none           => []
      | some (down, e) => 'e' :: (if down then ['-'] else []) ++ e

/-- The value of a number. -/
def value (n : Numeral) : Json :=
  let digits := Nat.ofDigitChars 10 (n.whole ++ n.fraction) 0
  let shift := match n.exponent with
    | none           => (0, n.fraction.length)
    | some (down, e) =>
        let size := Nat.ofDigitChars 10 e 0
        if down then (0, n.fraction.length + size) else (size, n.fraction.length)
  if isBeyond digits shift.1 shift.2 then .unreadable
  else if n.fraction.isEmpty ∧ n.exponent = none ∧ ¬(n.negative ∧ digits = 0) then
    .int (if n.negative then -(digits : Int) else digits)
  else .decimal (String.ofList n.text)

end Numeral

/-- The digits in front of a text, of which there has to be one, and the text
    behind them. -/
def readDigits (cs : List Char) : Option (List Char × List Char) :=
  match cs.takeWhile Char.isDigit with
  | [] => none
  | ds => some (ds, cs.dropWhile Char.isDigit)

/-- The digits of a whole number, without a leading zero. -/
def readWhole : List Char → Option (List Char × List Char)
  | '0' :: cs => some (['0'], cs)
  | cs        => readDigits cs

/-- The digits behind a decimal point, if there is one. -/
def readFraction : List Char → Option (List Char × List Char)
  | '.' :: cs => readDigits cs
  | cs        => some ([], cs)

/-- An exponent, if there is one: whether it is negative, and its digits. -/
def readExponent : List Char → Option (Option (Bool × List Char) × List Char)
  | c :: cs =>
      if c = 'e' ∨ c = 'E' then
        match cs with
        | '-' :: ds => (readDigits ds).map fun r => (some (true, r.1), r.2)
        | '+' :: ds => (readDigits ds).map fun r => (some (false, r.1), r.2)
        | ds        => (readDigits ds).map fun r => (some (false, r.1), r.2)
      else some (none, c :: cs)
  | [] => some (none, [])

/-- A number without its sign. -/
def readNumber (negative : Bool) (cs : List Char) : Option (Token × List Char) := do
  let (whole, cs) ← readWhole cs
  let (fraction, cs) ← readFraction cs
  let (exponent, cs) ← readExponent cs
  return (.scalar (Numeral.value ⟨negative, whole, fraction, exponent⟩), cs)

/-- The token at the beginning of a text that is not empty, given as `c ::
    cs`. -/
def Token.read (c : Char) (cs : List Char) : Option (Token × List Char) :=
  match c, cs with
  | '[', cs => some (.openArray, cs)
  | ']', cs => some (.closeArray, cs)
  | '\x7b', cs => some (.openObject, cs)
  | '\x7d', cs => some (.closeObject, cs)
  | ',', cs => some (.comma, cs)
  | ':', cs => some (.colon, cs)
  | '"', cs => (readString {} cs).map fun r => (.string r.1, r.2)
  | 'n', 'u' :: 'l' :: 'l' :: cs => some (.scalar .null, cs)
  | 't', 'r' :: 'u' :: 'e' :: cs => some (.scalar (.bool true), cs)
  | 'f', 'a' :: 'l' :: 's' :: 'e' :: cs => some (.scalar (.bool false), cs)
  | '-', cs => readNumber true cs
  | c, cs => if c.isDigit then readNumber false (c :: cs) else none

end ModInstall.Json
