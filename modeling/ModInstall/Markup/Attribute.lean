import ModInstall.Markup.Closer
import ModInstall.Markup.Entity

/-! # Attributes

    Behind its name a start tag holds attributes: a key, `=`, and a value in
    quotes of either kind, with white space around the key and the `=` as one
    likes.  `Attribute.read` reads them one by one and unescapes each value as
    it comes to it, so that of two faults in a tag the earlier attribute's is
    reported.

    Namespace declarations are read and dropped; of other names only the part
    behind the first `:` is kept.  Two attributes must not share a full name.
    Positions count the bytes of the tag from behind its `<`. -/

namespace ModInstall.Markup

/-- What is wrong with the attributes of a tag. -/
inductive AttributeError
  /-- Something other than `=` follows a key. -/
  | missingEquals (position : Nat)
  /-- The key at `position` has been used at `earlier`. -/
  | duplicate (position earlier : Nat)
  /-- The tag ends behind `=`. -/
  | missingValue (position : Nat)
  /-- A value does not begin with a quote. -/
  | unquoted (position : Nat)
  /-- The tag ends inside a quoted value. -/
  | missingQuote (position : Nat) (quote : Char)
  /-- A value holds a wrong entity. -/
  | entity (cause : EntityError)
deriving DecidableEq

/-- The wording of a wrong attribute. -/
def AttributeError.message : AttributeError → String
  | .missingEquals p => located p "attribute key must be directly followed by `=` or space"
  | .duplicate p e =>
      located p ("duplicated attribute, previous declaration at position " ++ Nat.repr e)
  | .missingValue p => located p "`=` must be followed by an attribute value"
  | .unquoted p => located p "attribute value must be enclosed in `\"` or `'`"
  | .missingQuote p quote =>
      located p ("missing closing quote `" ++ String.singleton quote ++ "` in attribute value")
  | .entity cause => cause.message
where
  /-- A fault at a position of the tag. -/
  located (position : Nat) (fault : String) : String :=
    "error while parsing attribute: position " ++ Nat.repr position ++ ": " ++ fault

/-- The part of a name behind its first `:`, or all of it. -/
def localName (name : List Char) : List Char :=
  match name.dropWhile (· != ':') with
  | []        => name
  | _ :: rest => rest

namespace Attribute

/-- Whether a key declares a namespace. -/
def declaresNamespace (key : List Char) : Bool :=
  key == ['x', 'm', 'l', 'n', 's'] || ['x', 'm', 'l', 'n', 's', ':'].isPrefixOf key

/-- Whether a character, not being the first of a key, is part of it. -/
def inKey (c : Char) : Bool :=
  c != '=' && !isSpace c

/-- A value in quotes: the value as written, and the text behind it.  The tag
    has `length` bytes. -/
def readValue (length : Nat) (cs : List Char) : Except AttributeError (List Char × List Char) :=
  match cs.dropWhile isSpace with
  | []     => .error (.missingValue length)
  | q :: r =>
      if q = '"' ∨ q = '\'' then
        match r.dropWhile (· != q) with
        | []        => .error (.missingQuote length q)
        | _ :: rest => .ok (r.takeWhile (· != q), rest)
      else .error (.unquoted (length - utf8Length (q :: r)))

/-- The text behind the `=` that follows a key. -/
def readEquals (length : Nat) (cs : List Char) : Except AttributeError (List Char) :=
  match cs.dropWhile isSpace with
  | []     => .error (.missingEquals length)
  | c :: r => if c = '=' then .ok r else .error (.missingEquals (length - utf8Length (c :: r)))

theorem readValue_length_lt {n : Nat} {cs value rest : List Char}
    (h : readValue n cs = .ok (value, rest)) : rest.length < cs.length := by
  have h₁ := Entity.length_dropWhile_le isSpace cs
  unfold readValue at h
  split at h
  · simp at h
  · next q r hq =>
      rw [hq, List.length_cons] at h₁
      have h₂ := Entity.length_dropWhile_le (· != q) r
      split at h
      · split at h
        · simp at h
        · next hr =>
            rw [hr, List.length_cons] at h₂
            obtain ⟨_, rfl⟩ := Prod.mk.inj (Except.ok.inj h)
            omega
      · simp at h

theorem readEquals_length_lt {n : Nat} {cs rest : List Char}
    (h : readEquals n cs = .ok rest) : rest.length < cs.length := by
  have h₁ := Entity.length_dropWhile_le isSpace cs
  unfold readEquals at h
  split at h
  · simp at h
  · next c r hc =>
      rw [hc, List.length_cons] at h₁
      split at h
      · obtain rfl := Except.ok.inj h
        omega
      · simp at h

/-- Reads the attributes in the end `cs` of a tag of `length` bytes.  The keys
    in front of them stand in `seen` with their positions. -/
def readFrom (length : Nat) (seen : List (List Char × Nat)) (cs : List Char) :
    Except AttributeError (List (String × String)) :=
  match _hk : cs.dropWhile isSpace with
  | []     => .ok []
  | k :: r =>
      let key := k :: r.takeWhile inKey
      let position := length - utf8Length (k :: r)
      match _he : readEquals length (r.dropWhile inKey) with
      | .error e  => .error e
      | .ok value =>
          match seen.lookup key with
          | some earlier => .error (.duplicate position earlier)
          | none =>
              match _hv : readValue length value with
              | .error e          => .error e
              | .ok (raw, rest) => do
                  let more := readFrom length ((key, position) :: seen) rest
                  if declaresNamespace key then more
                  else
                    let text ← (unescape raw).mapError .entity
                    return (String.ofList (localName key), String.ofList text) :: (← more)
termination_by cs.length
decreasing_by
  have h₁ := Entity.length_dropWhile_le isSpace cs
  have h₂ := Entity.length_dropWhile_le inKey r
  have h₃ := readEquals_length_lt _he
  have h₄ := readValue_length_lt _hv
  rw [_hk, List.length_cons] at h₁
  omega

/-- Reads the attributes of a tag, given what stands between its `<` and its
    end: a name and then the attributes. -/
def read (tag : List Char) : Except AttributeError (List (String × String)) :=
  readFrom (utf8Length tag) [] (tag.dropWhile (!isSpace ·))

end Attribute

end ModInstall.Markup
