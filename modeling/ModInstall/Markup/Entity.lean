/-! # Character entities

    In text and in attribute values `&` begins an entity and the next `;` ends
    it: one of five names, or `#` with the number of a character, in decimal
    or, behind `x`, in hexadecimal.  `unescape` puts the characters in their
    place.  A `;` elsewhere stands for itself.

    Positions in errors count the bytes of the UTF-8 form of the text that is
    unescaped. -/

namespace ModInstall.Markup

/-- The length of a text in UTF-8. -/
def utf8Length (cs : List Char) : Nat :=
  cs.foldl (fun n c => n + c.utf8Size) 0

/-- What is wrong with the number of a character. -/
inductive ReferenceError
  /-- The number has a sign. -/
  | sign
  /-- There are no digits. -/
  | empty
  /-- A character is no digit of the radix. -/
  | digit
  /-- The number does not fit 32 bits. -/
  | overflow
  /-- The number is zero. -/
  | zero
  /-- No character has this number. -/
  | noCharacter (code : Nat)
deriving DecidableEq

/-- What is wrong with an entity. -/
inductive EntityError
  /-- No `;` ends the entity that begins at `start`; the text has `length`
      bytes. -/
  | unterminated (start length : Nat)
  /-- The name between the positions `start` and `stop` is none of the five. -/
  | unknown (start stop : Nat) (name : String)
  /-- The number of a character is wrong. -/
  | reference (cause : ReferenceError)
deriving DecidableEq

/-- The wording of a wrong character number. -/
def ReferenceError.message : ReferenceError → String
  | .sign             => "unexpected number sign"
  | .empty            => "cannot parse integer from empty string"
  | .digit            => "invalid digit found in string"
  | .overflow         => "number too large to fit in target type"
  | .zero             => "0x0 character is not permitted in XML"
  | .noCharacter code => "`" ++ Nat.repr code ++ "` is not a valid codepoint"

/-- The wording of a wrong entity. -/
def EntityError.message : EntityError → String
  | .unterminated start length =>
      "Error while escaping character at range " ++ Nat.repr start ++ ".." ++ Nat.repr length
        ++ ": Cannot find ';' after '&'"
  | .unknown start stop name =>
      "at " ++ Nat.repr start ++ ".." ++ Nat.repr stop ++ ": unrecognized entity `" ++ name ++ "`"
  | .reference cause => "invalid character reference: " ++ cause.message

namespace Entity

/-- The value of a character as a digit of a radix up to 16. -/
def digitIn? (radix : Nat) (c : Char) : Option Nat :=
  let value? :=
    if c.isDigit then some (c.toNat - '0'.toNat)
    else if 'a' ≤ c ∧ c ≤ 'f' then some (c.toNat - 'a'.toNat + 10)
    else if 'A' ≤ c ∧ c ≤ 'F' then some (c.toNat - 'A'.toNat + 10)
    else none
  value?.filter (· < radix)

/-- The value of the digits that follow the value `n`.  A character that is no
    digit is found before the number grows too large at it. -/
def codeFrom (radix n : Nat) : List Char → Except ReferenceError Nat
  | []      => .ok n
  | c :: cs =>
      match digitIn? radix c with
      | none   => .error .digit
      | some d =>
          if n * radix + d < 2 ^ 32 then codeFrom radix (n * radix + d) cs else .error .overflow

/-- The value of one or more digits without a sign. -/
def code (radix : Nat) : List Char → Except ReferenceError Nat
  | []      => .error .empty
  | c :: cs => if c = '+' ∨ c = '-' then .error .sign else codeFrom radix 0 (c :: cs)

/-- The character with a number. -/
def character (n : Nat) : Except ReferenceError Char :=
  if n = 0 then .error .zero
  else if n.isValidChar then .ok (Char.ofNat n)
  else .error (.noCharacter n)

/-- The character that the text behind `#` names. -/
def reference (cs : List Char) : Except ReferenceError Char :=
  (match cs with
    | 'x' :: ds => code 16 ds
    | ds        => code 10 ds) >>= character

/-- The character of a named entity. -/
def named? (name : List Char) : Option Char :=
  if name = ['l', 't'] then some '<'
  else if name = ['g', 't'] then some '>'
  else if name = ['a', 'm', 'p'] then some '&'
  else if name = ['a', 'p', 'o', 's'] then some '\''
  else if name = ['q', 'u', 'o', 't'] then some '"'
  else none

/-- Whether a character may stand between `&` and the end of an entity. -/
def inside (c : Char) : Bool :=
  c != '&' && c != ';'

/-- The character of the entity with this text between `&` and `;`.  The text
    begins at `start`. -/
def resolve (start : Nat) (name : List Char) : Except EntityError Char :=
  match name with
  | '#' :: cs => (reference cs).mapError .reference
  | _         =>
      match named? name with
      | some c => .ok c
      | none   => .error (.unknown start (start + utf8Length name) (String.ofList name))

theorem length_dropWhile_le {α : Type} (p : α → Bool) (l : List α) :
    (l.dropWhile p).length ≤ l.length :=
  (List.dropWhile_suffix p).length_le

/-- Unescapes the end `cs` of a text of `length` bytes. -/
def unescapeFrom (length : Nat) (cs : List Char) : Except EntityError (List Char) :=
  match _h : cs.dropWhile (· != '&') with
  | []     => .ok cs
  | _ :: r =>
      let start := length - utf8Length r
      match _hr : r.dropWhile inside with
      | ';' :: rest => do
          let c ← resolve start (r.takeWhile inside)
          let more ← unescapeFrom length rest
          return cs.takeWhile (· != '&') ++ c :: more
      | _ => .error (.unterminated (start - 1) length)
termination_by cs.length
decreasing_by
  have h₁ := length_dropWhile_le (· != '&') cs
  have h₂ := length_dropWhile_le inside r
  rw [_h, List.length_cons] at h₁
  rw [_hr, List.length_cons] at h₂
  omega

end Entity

/-- A text with every entity replaced by its character. -/
def unescape (cs : List Char) : Except EntityError (List Char) :=
  Entity.unescapeFrom (utf8Length cs) cs

end ModInstall.Markup
