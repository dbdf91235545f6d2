/-! # Where markup ends

    Every kind of markup ends at a `>`, but not at every `>`: one inside a
    quoted attribute value, or before the `--` of a comment, is part of it.  A
    `Closer` says which.  It follows the text with a state of its own, and a
    `>` ends the markup when it is met in a closing state.  `read` cuts a
    source at the first such `>`. -/

namespace ModInstall.Markup

/-- White space inside a tag: the four characters of the markup grammar. -/
def isSpace (c : Char) : Bool :=
  c == ' ' || c == '\t' || c == '\r' || c == '\n'

/-- A rule for the end of markup: follows the text, and tells whether a `>` met
    now would end it. -/
structure Closer (σ : Type) where
  start  : σ
  step   : σ → Char → σ
  closes : σ → Bool

namespace Closer

variable {σ : Type}

/-- Reads on in a state, with the text read so far in `seen`, nearest character
    first. -/
def readFrom (k : Closer σ) (s : σ) (seen : List Char) : List Char → Option (List Char × List Char)
  | []      => none
  | c :: cs =>
      if c = '>' ∧ k.closes s then some (seen.reverse, cs)
      else k.readFrom (k.step s c) (c :: seen) cs

/-- The text before the `>` that ends the markup, and the text after it. -/
def read (k : Closer σ) (cs : List Char) : Option (List Char × List Char) :=
  k.readFrom k.start [] cs

/-- A tag ends at a `>` outside quotes.  The state is the quote that is
    open. -/
def tag : Closer (Option Char) where
  start := none
  step
    | none,   c => if c = '"' ∨ c = '\'' then some c else none
    | some q, c => if c = q then none else some q
  closes s := s.isNone

/-- A literal section ends at a `>` behind `]]`.  The state counts the brackets
    just read, up to two. -/
def literal : Closer (Fin 3) where
  start := 0
  step s c := if c = ']' then (if s = 0 then 1 else 2) else 0
  closes s := s == 2

/-- A comment ends at a `>` behind `--`, no sooner than the opening `--` and
    closing `--` have room.  The state counts the characters read and the
    hyphens just read. -/
def comment : Closer (Nat × Nat) where
  start := (0, 0)
  step s c := (s.1 + 1, if c = '-' then s.2 + 1 else 0)
  closes s := 4 ≤ s.1 && 2 ≤ s.2

/-- A document type ends at the `>` that balances the `<` inside it.  The state
    counts those open. -/
def doctype : Closer Nat where
  start := 0
  step s c := if c = '<' then s + 1 else if c = '>' then s - 1 else s
  closes s := s == 0

/-- A processing instruction ends at a `>` behind `?`, be it the one it begins
    with. -/
def instruction : Closer Bool where
  start := true
  step _ c := c = '?'
  closes s := s

theorem readFrom_eq_some {k : Closer σ} {s : σ} {seen cs before after : List Char}
    (h : k.readFrom s seen cs = some (before, after)) :
    seen.reverse ++ cs = before ++ '>' :: after := by
  induction cs generalizing s seen with
  | nil => simp [readFrom] at h
  | cons c cs ih =>
      rw [readFrom] at h
      split at h
      · next hc =>
          obtain ⟨rfl, rfl⟩ := Prod.mk.inj (Option.some.inj h)
          rw [hc.1]
      · simpa using ih h

/-- Reading loses nothing but the `>`. -/
theorem read_eq_some {k : Closer σ} {cs before after : List Char}
    (h : k.read cs = some (before, after)) : cs = before ++ '>' :: after := by
  simpa using readFrom_eq_some h

theorem read_length_lt {k : Closer σ} {cs before after : List Char}
    (h : k.read cs = some (before, after)) : after.length < cs.length := by
  rw [read_eq_some h, List.length_append, List.length_cons]
  omega

end Closer

end ModInstall.Markup
