import ModInstall.Json.Token

/-! # Reading JSON

    A JSON text is read token by token on a stack of the arrays and objects
    that are still open, so nesting has no bound here.  `Builder.run` reads to
    the end of the text; `read?` gives the value of a text that is one JSON
    value and nothing else. -/

namespace ModInstall.Json

/-- An array or object that is still open, with what it holds so far, newest
    first.  An object also keeps the key whose value is awaited, and whether
    all its keys could be read. -/
inductive Frame
  | array (items : List Json)
  | object (entries : List (String × Json)) (sound : Bool)
  | entry (entries : List (String × Json)) (sound : Bool) (key : String)

/-- What may come next. -/
inductive Expectation
  | value
  /-- A value, or the end of an array that is still empty. -/
  | valueOrEnd
  | key
  /-- A key, or the end of an object that is still empty. -/
  | keyOrEnd
  | colon
  /-- A comma, or the end of the innermost array or object. -/
  | more
  /-- Nothing; this is the value of the text. -/
  | nothing (v : Json)

/-- A value that is being read: what is open, innermost first, and what may
    come next. -/
structure Builder where
  frames  : List Frame := []
  expects : Expectation := .value

namespace Builder

/-- Puts a finished value where it belongs. -/
def put (frames : List Frame) (v : Json) : Option Builder :=
  match frames with
  | []                      => some ⟨[], .nothing v⟩
  | .array vs :: fs         => some ⟨.array (v :: vs) :: fs, .more⟩
  | .entry es sound k :: fs => some ⟨.object ((k, v) :: es) sound :: fs, .more⟩
  | .object _ _ :: _        => none

/-- Notes the key of the entry that comes next.  A key that cannot be read
    spoils the object. -/
def putKey (frames : List Frame) (key : Option String) : Option Builder :=
  match frames with
  | .object es sound :: fs =>
      some ⟨.entry es (sound && key.isSome) (key.getD "") :: fs, .colon⟩
  | _ => none

/-- Ends the innermost array. -/
def endArray : List Frame → Option Builder
  | .array vs :: fs => put fs (.array vs.reverse)
  | _               => none

/-- Ends the innermost object. -/
def endObject : List Frame → Option Builder
  | .object es sound :: fs => put fs (if sound then .object es.reverse else .unreadable)
  | _                      => none

/-- Begins a value. -/
def begin (frames : List Frame) : Token → Option Builder
  | .openArray       => some ⟨.array [] :: frames, .valueOrEnd⟩
  | .openObject      => some ⟨.object [] true :: frames, .keyOrEnd⟩
  | .string (some s) => put frames (.string s)
  | .string none     => put frames .unreadable
  | .scalar v        => put frames v
  | _                => none

/-- Goes on behind a value inside an array or object. -/
def goOn (frames : List Frame) : Token → Option Builder
  | .comma =>
      match frames with
      | .array _ :: _    => some ⟨frames, .value⟩
      | .object _ _ :: _ => some ⟨frames, .key⟩
      | _                => none
  | .closeArray  => endArray frames
  | .closeObject => endObject frames
  | _            => none

/-- Reads one token. -/
def step (b : Builder) (t : Token) : Option Builder :=
  match b.expects, t with
  | .value,      t            => begin b.frames t
  | .valueOrEnd, .closeArray  => endArray b.frames
  | .valueOrEnd, t            => begin b.frames t
  | .key,        .string k    => putKey b.frames k
  | .key,        _            => none
  | .keyOrEnd,   .string k    => putKey b.frames k
  | .keyOrEnd,   .closeObject => endObject b.frames
  | .keyOrEnd,   _            => none
  | .colon,      .colon       => some { b with expects := .value }
  | .colon,      _            => none
  | .more,       t            => goOn b.frames t
  | .nothing _,  _            => none

/-- The value of the text, if it is complete. -/
def result? (b : Builder) : Option Json :=
  match b.expects with
  | .nothing v => some v
  | _          => none

end Builder

section Length

variable {α : Type} {cs rest : List Char} {a : α}

theorem readDigits_length_lt {ds : List Char} (h : readDigits cs = some (ds, rest)) :
    rest.length < cs.length := by
  have hl := congrArg List.length (List.takeWhile_append_dropWhile (p := Char.isDigit) (l := cs))
  unfold readDigits at h
  split at h
  · simp at h
  · next d hd =>
      obtain ⟨rfl, rfl⟩ := Prod.mk.inj (Option.some.inj h)
      have := List.length_pos_iff.2 hd
      rw [List.length_append] at hl
      omega

theorem readWhole_length_lt {ds : List Char} (h : readWhole cs = some (ds, rest)) :
    rest.length < cs.length := by
  unfold readWhole at h
  split at h
  · obtain ⟨_, rfl⟩ := Prod.mk.inj (Option.some.inj h)
    exact Nat.lt_succ_self _
  · exact readDigits_length_lt h

theorem readFraction_length_le {ds : List Char} (h : readFraction cs = some (ds, rest)) :
    rest.length ≤ cs.length := by
  unfold readFraction at h
  split at h
  · exact Nat.le_succ_of_le (Nat.le_of_lt (readDigits_length_lt h))
  · obtain ⟨_, rfl⟩ := Prod.mk.inj (Option.some.inj h)
    exact Nat.le_refl _

theorem readExponent_length_le {e : Option (Bool × List Char)}
    (h : readExponent cs = some (e, rest)) : rest.length ≤ cs.length := by
  have key : ∀ {ds : List Char} {b : Bool},
      (readDigits ds).map (fun r => (some (b, r.1), r.2)) = some (e, rest) →
      rest.length ≤ ds.length := by
    intro ds b hd
    obtain ⟨_, hr, hxy⟩ := Option.map_eq_some_iff.1 hd
    obtain ⟨_, rfl⟩ := Prod.mk.inj hxy
    exact Nat.le_of_lt (readDigits_length_lt hr)
  unfold readExponent at h
  split at h
  · split at h
    · split at h
      · exact Nat.le_succ_of_le (Nat.le_succ_of_le (key h))
      · exact Nat.le_succ_of_le (Nat.le_succ_of_le (key h))
      · exact Nat.le_succ_of_le (key h)
    · obtain ⟨_, rfl⟩ := Prod.mk.inj (Option.some.inj h)
      exact Nat.le_refl _
  · obtain ⟨_, rfl⟩ := Prod.mk.inj (Option.some.inj h)
    exact Nat.le_refl _

theorem readNumber_length_lt {negative : Bool} {t : Token}
    (h : readNumber negative cs = some (t, rest)) : rest.length < cs.length := by
  simp only [readNumber, Option.bind_eq_bind, Option.bind_eq_some_iff] at h
  obtain ⟨_, h₁, _, h₂, _, h₃, h₄⟩ := h
  obtain ⟨_, rfl⟩ := Prod.mk.inj (Option.some.inj h₄)
  exact Nat.lt_of_le_of_lt (readExponent_length_le h₃)
    (Nat.lt_of_le_of_lt (readFraction_length_le h₂) (readWhole_length_lt h₁))

theorem readString_length_lt {p : Piece} {s : Option String}
    (h : readString p cs = some (s, rest)) : rest.length < cs.length := by
  fun_induction readString p cs with
  | case3 =>
      rename_i ih
      have := ih h
      simp only [List.length_cons]
      omega
  | _ => grind

theorem Token.read_length_le {c : Char} {t : Token} (h : Token.read c cs = some (t, rest)) :
    rest.length ≤ cs.length := by
  unfold Token.read at h
  split at h
  case h_7 =>
    obtain ⟨_, hr, hxy⟩ := Option.map_eq_some_iff.1 h
    obtain ⟨_, rfl⟩ := Prod.mk.inj hxy
    exact Nat.le_of_lt (readString_length_lt hr)
  case h_11 => exact Nat.le_of_lt (readNumber_length_lt h)
  case h_12 =>
    split at h
    · exact Nat.le_of_lt_succ (readNumber_length_lt h)
    · simp at h
  all_goals grind

end Length

/-- Reads a text to its end. -/
def Builder.run (b : Builder) (cs : List Char) : Option Json :=
  match _h : cs.dropWhile isSpace with
  | []     => b.result?
  | c :: r =>
      match _ht : Token.read c r with
      | none           => none
      | some (t, rest) =>
          match b.step t with
          | none    => none
          | some b' => b'.run rest
termination_by cs.length
decreasing_by
  have h₁ := (List.dropWhile_suffix isSpace (l := cs)).length_le
  have h₂ := Token.read_length_le _ht
  rw [_h, List.length_cons] at h₁
  omega

/-- The value of a text that is one JSON value, with white space around it or
    not. -/
def read? (text : String) : Option Json :=
  Builder.run {} text.toList

end ModInstall.Json
