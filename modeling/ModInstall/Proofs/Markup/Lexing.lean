import ModInstall.Markup.Lexeme

/-! # Where the pieces of a source begin and end

    A closer reads on to the first `>` that it may stop at.  `Passes` says that
    a text holds no such `>`, so that a text which passes, followed by a `>`
    that closes, is cut off exactly there (`read_of_passes`).  For each kind of
    markup this gives the lexeme that its text is read to, whatever comes
    behind.  Runs of text are different: they go on to the next `<`, so two of
    them side by side are one run (`lexemes_text_append`). -/

namespace ModInstall.Markup

namespace Closer

variable {σ : Type} {k : Closer σ} {s : σ}

/-- No `>` of a text is one that closes, from a state on. -/
def Passes (k : Closer σ) : σ → List Char → Prop
  | _, [] => True
  | s, c :: cs => (c = '>' → k.closes s = false) ∧ k.Passes (k.step s c) cs

/-- A text passes in two parts, the second from the state that the first leads
    to. -/
theorem passes_append {cs ds : List Char} :
    k.Passes s (cs ++ ds) ↔ k.Passes s cs ∧ k.Passes (cs.foldl k.step s) ds := by
  induction cs generalizing s with
  | nil => simp [Passes]
  | cons c cs ih =>
      rw [List.cons_append, Passes, Passes, ih, List.foldl_cons, and_assoc]

/-- A text without `>` passes. -/
theorem passes_of_not_mem {cs : List Char} (h : '>' ∉ cs) : k.Passes s cs := by
  induction cs generalizing s with
  | nil => trivial
  | cons c cs ih =>
      obtain ⟨hc, hcs⟩ := not_or.mp (mt List.mem_cons.mpr h)
      exact ⟨fun he => absurd he.symm hc, ih hcs⟩

/-- From any state, a text that passes and a `>` that closes are read
    together. -/
theorem readFrom_of_passes {cs rest seen : List Char} (h : k.Passes s cs)
    (hc : k.closes (cs.foldl k.step s) = true) :
    k.readFrom s seen (cs ++ '>' :: rest) = some (seen.reverse ++ cs, rest) := by
  induction cs generalizing s seen with
  | nil =>
      rw [List.nil_append, readFrom, if_pos ⟨rfl, hc⟩, List.append_nil]
  | cons c cs ih =>
      have hpass : ¬(c = '>' ∧ k.closes s = true) := by
        rintro ⟨he, hs⟩
        exact absurd hs (by rw [h.1 he]; decide)
      rw [List.cons_append, readFrom, if_neg hpass, ih h.2 hc, List.reverse_cons,
        List.append_assoc]
      rfl

/-- A text that passes is what stands before the `>` that closes it. -/
theorem read_of_passes {cs rest : List Char} (h : k.Passes k.start cs)
    (hc : k.closes (cs.foldl k.step k.start) = true) :
    k.read (cs ++ '>' :: rest) = some (cs, rest) :=
  readFrom_of_passes h hc

/-! ## What the closers pass over -/

/-- The brackets just read can be part of a `]]>` only with what follows. -/
theorem literal_passes {s : Fin 3} {cs : List Char}
    (h : ¬[']', ']', '>'] <:+: List.replicate s ']' ++ cs) : literal.Passes s cs := by
  induction cs generalizing s with
  | nil => trivial
  | cons c cs ih =>
      constructor
      · rintro rfl
        match s with
        | 0 | 1 => rfl
        | 2 => exact absurd (List.prefix_append [']', ']', '>'] cs).isInfix h
      · refine ih (mt (fun hin => ?_) h)
        by_cases hc : c = ']'
        · subst hc
          match s with
          | 0 | 1 => exact hin
          | 2 => exact hin.trans (List.suffix_cons ..).isInfix
        · have hstep : literal.step s c = 0 := if_neg hc
          rw [hstep] at hin
          exact hin.trans ((List.suffix_cons c cs).trans (List.suffix_append ..)).isInfix

theorem literal_closes (s : Fin 3) :
    literal.closes (literal.step (literal.step s ']') ']') = true := by
  revert s
  decide

/-- The state of a comment counts its characters. -/
theorem comment_foldl_fst (s : Nat × Nat) (cs : List Char) :
    (cs.foldl comment.step s).1 = s.1 + cs.length := by
  induction cs generalizing s with
  | nil => rfl
  | cons c cs ih =>
      rw [List.foldl_cons, ih, List.length_cons]
      show s.1 + 1 + cs.length = _
      omega

end Closer

namespace Lexeme

/-! ## Markup -/

/-- The text of a piece of markup is read to it, whatever comes behind. -/
def IsRead (l : Lexeme) : Prop :=
  ∃ cs, l.source = '<' :: cs ∧ ∀ rest, readMarkup (cs ++ rest) = .ok (l, rest)

/-- A literal section is read up to the first `]]>`. -/
theorem isRead_literal {content : List Char} (h : ¬[']', ']', '>'] <:+: content) :
    IsRead (.literal content) := by
  refine ⟨'!' :: literalOpening ++ content ++ [']', ']', '>'], rfl, fun rest => ?_⟩
  have hpass : Closer.literal.Passes 0 (literalOpening ++ content ++ [']', ']']) := by
    rw [List.append_assoc, Closer.passes_append, Closer.passes_append]
    refine ⟨Closer.passes_of_not_mem (by decide), ?_, Closer.passes_of_not_mem (by decide)⟩
    exact Closer.literal_passes h
  have hread : Closer.literal.read (literalOpening ++ content ++ [']', ']'] ++ '>' :: rest)
      = some (literalOpening ++ content ++ [']', ']'], rest) := by
    refine Closer.read_of_passes hpass ?_
    rw [List.foldl_append]
    exact Closer.literal_closes _
  have hsplit : '!' :: literalOpening ++ content ++ [']', ']', '>'] ++ rest
      = '!' :: (literalOpening ++ content ++ [']', ']'] ++ '>' :: rest) := by
    simp
  rw [hsplit]
  show readLiteral _ = _
  rw [readLiteral, hread]
  simp [literalOpening]

/-- A comment without `>` is read as one. -/
theorem isRead_comment {content : List Char} (h : '>' ∉ content) :
    IsRead (.ignored ('<' :: '!' :: '-' :: '-' :: content ++ ['-', '-', '>'])) := by
  refine ⟨'!' :: '-' :: '-' :: content ++ ['-', '-', '>'], rfl, fun rest => ?_⟩
  have hread : Closer.comment.read ('-' :: '-' :: content ++ ['-', '-'] ++ '>' :: rest)
      = some ('-' :: '-' :: content ++ ['-', '-'], rest) := by
    refine Closer.read_of_passes (Closer.passes_of_not_mem (by simpa using h)) ?_
    -- two hyphens in front, two at the end, which are those just read
    have hlength := Closer.comment_foldl_fst (2, 2) content
    rw [List.foldl_append]
    show (4 ≤ (content.foldl Closer.comment.step (2, 2)).1 + 1 + 1 &&
      2 ≤ (content.foldl Closer.comment.step (2, 2)).2 + 1 + 1) = true
    simp only [Bool.and_eq_true, decide_eq_true_eq]
    omega
  have hsplit : '!' :: '-' :: '-' :: content ++ ['-', '-', '>'] ++ rest
      = '!' :: ('-' :: '-' :: content ++ ['-', '-'] ++ '>' :: rest) := by
    simp
  rw [hsplit]
  show readComment _ = _
  rw [readComment, hread]
  simp

theorem isRead_instruction {content : List Char} (h : '>' ∉ content) :
    IsRead (.ignored ('<' :: '?' :: content ++ ['?', '>'])) := by
  refine ⟨'?' :: content ++ ['?', '>'], rfl, fun rest => ?_⟩
  have hread : Closer.instruction.read (content ++ ['?'] ++ '>' :: rest)
      = some (content ++ ['?'], rest) := by
    refine Closer.read_of_passes (Closer.passes_append.mpr ⟨Closer.passes_of_not_mem h, ?_⟩) ?_
    · exact ⟨fun h => absurd h (by decide), trivial⟩
    · rw [List.foldl_append]
      rfl
  have hsplit : '?' :: content ++ ['?', '>'] ++ rest
      = '?' :: (content ++ ['?'] ++ '>' :: rest) := by
    simp
  rw [hsplit]
  show readInstruction _ = _
  rw [readInstruction, hread]
  cases content <;> simp

/-! ## Tags -/

/-- A tag that its closer reads to the end, and that does not begin as other
    markup does. -/
structure IsTag (tag : List Char) : Prop where
  passes : Closer.tag.Passes none tag
  closes : tag.foldl Closer.tag.step none = none
  head   : ∀ c ∈ tag.head?, c ≠ '!' ∧ c ≠ '?'

/-- A tag is read up to the `>` that is not in quotes. -/
theorem readMarkup_tag {tag : List Char} (h : IsTag tag) (rest : List Char) :
    readMarkup (tag ++ '>' :: rest) = .ok (ofTag tag, rest) := by
  have hread : readTag (tag ++ '>' :: rest) = .ok (ofTag tag, rest) := by
    have hclosed : Closer.tag.closes (tag.foldl Closer.tag.step Closer.tag.start) = true := by
      show (tag.foldl Closer.tag.step none).isNone = true
      rw [h.closes]
      rfl
    rw [readTag, Closer.read_of_passes h.passes hclosed]
  cases tag with
  | nil => exact hread
  | cons c cs =>
      obtain ⟨hbang, hquestion⟩ := h.head c rfl
      rw [← hread, List.cons_append, readMarkup]
      · exact fun _ he => hbang (List.cons.inj he).1
      · exact fun _ he => hquestion (List.cons.inj he).1

/-- A start tag is read to itself, if it does not end as that of an empty
    element does. -/
theorem isRead_openTag {tag : List Char} (h : IsTag tag) (hhead : tag.head? ≠ some '/')
    (hlast : tag.getLast? ≠ some '/') : IsRead (.openTag tag) := by
  refine ⟨tag ++ ['>'], rfl, fun rest => ?_⟩
  rw [List.append_assoc]
  refine (readMarkup_tag h rest).trans ?_
  rw [ofTag, if_neg hlast]
  rintro tag rfl
  exact hhead rfl

theorem isRead_emptyTag {tag : List Char} (h : IsTag (tag ++ ['/']))
    (hhead : (tag ++ ['/']).head? ≠ some '/') : IsRead (.emptyTag tag) := by
  refine ⟨tag ++ ['/', '>'], rfl, fun rest => ?_⟩
  have hsplit : tag ++ ['/', '>'] ++ rest = tag ++ ['/'] ++ '>' :: rest := by simp
  rw [hsplit, readMarkup_tag h rest, ofTag]
  · simp
  · intro tag' he
    exact hhead (by rw [he]; rfl)

theorem isRead_closeTag {tag : List Char} (h : IsTag ('/' :: tag)) : IsRead (.closeTag tag) :=
  ⟨'/' :: tag ++ ['>'], rfl, fun rest => by
    rw [List.append_assoc]
    exact readMarkup_tag h rest⟩

end Lexeme

/-! ## Sources -/

open Lexeme

theorem lexemes_nil : lexemes [] = ([], none) := by
  rw [lexemes]

/-- The first lexeme, and then those of the rest. -/
theorem lexemes_cons {c : Char} {cs rest : List Char} {l : Lexeme}
    (h : Lexeme.read c cs = .ok (l, rest)) :
    lexemes (c :: cs) = (l :: (lexemes rest).1, (lexemes rest).2) := by
  rw [lexemes]
  split
  · next he => cases h.symm.trans he
  · next he =>
      obtain ⟨rfl, rfl⟩ := Prod.mk.inj (Except.ok.inj (h.symm.trans he))
      rfl

/-- Markup that is read to a lexeme is the first lexeme of a source that it
    begins. -/
theorem lexemes_of_isRead {l : Lexeme} (h : l.IsRead) (rest : List Char) :
    lexemes (l.source ++ rest) = (l :: (lexemes rest).1, (lexemes rest).2) := by
  obtain ⟨cs, hsource, hread⟩ := h
  rw [hsource, List.cons_append]
  refine lexemes_cons ?_
  rw [Lexeme.read, if_pos rfl, hread]

/-! ## Runs of text -/

/-- Puts a run of text in front of some lexemes; if they begin with text, it is
    one run with that. -/
def consText (run : List Char) : List Lexeme → List Lexeme
  | .text run' :: ls => .text (run ++ run') :: ls
  | ls => if run = [] then ls else .text run :: ls

/-- Markup is never read as text. -/
theorem readMarkup_ne_text {cs run rest : List Char} :
    readMarkup cs ≠ .ok (.text run, rest) := by
  intro h
  unfold readMarkup at h
  split at h
  · split at h
    · unfold readLiteral at h; grind
    · unfold readComment at h; grind
    · unfold readDoctype at h; grind
    · unfold readDoctype at h; grind
    · cases h
  · unfold readInstruction at h; grind
  · unfold readTag ofTag at h; grind

theorem consText_nil (ls : List Lexeme) : consText [] ls = ls := by
  cases ls with
  | nil => rfl
  | cons l ls => cases l <;> rfl

/-- In front of anything but text, a run is a run of its own. -/
theorem consText_of_ne_text {run : List Char} {ls : List Lexeme} (hrun : run ≠ [])
    (h : ∀ run' ls', ls ≠ .text run' :: ls') : consText run ls = .text run :: ls := by
  rw [consText, if_neg hrun]
  exact h

/-- A run of text goes on to the next `<`. -/
theorem lexemes_text {c : Char} (h : c ≠ '<') (cs : List Char) :
    lexemes (c :: cs)
      = (.text (c :: cs.takeWhile (· != '<')) :: (lexemes (cs.dropWhile (· != '<'))).1,
          (lexemes (cs.dropWhile (· != '<'))).2) :=
  lexemes_cons (by rw [Lexeme.read, if_neg h])

/-- A source that begins with markup does not begin with text. -/
theorem lexemes_markup_ne_text {cs run : List Char} {ls : List Lexeme} :
    (lexemes ('<' :: cs)).1 ≠ .text run :: ls := by
  rw [lexemes]
  split
  · simp
  · next he =>
      rw [Lexeme.read, if_pos rfl] at he
      rintro h
      obtain ⟨rfl, -⟩ := List.cons.inj h
      exact readMarkup_ne_text he

/-- Text in front of a source is the first run of it, together with the text
    that the source begins with. -/
theorem lexemes_text_append {run : List Char} (h : '<' ∉ run) (rest : List Char) :
    lexemes (run ++ rest) = (consText run (lexemes rest).1, (lexemes rest).2) := by
  cases run with
  | nil => rw [consText_nil, List.nil_append]
  | cons r rs =>
      obtain ⟨hr, hrs⟩ := not_or.mp (mt List.mem_cons.mpr h)
      have hall : ∀ c ∈ rs, (c != '<') = true := by
        intro c hc
        exact bne_iff_ne.mpr fun he => hrs (he ▸ hc)
      rw [List.cons_append, lexemes_text (Ne.symm hr), List.takeWhile_append_of_pos hall,
        List.dropWhile_append_of_pos hall]
      cases rest with
      | nil => simp [lexemes_nil, consText]
      | cons c cs =>
          by_cases hc : c = '<'
          · subst hc
            rw [consText_of_ne_text (by simp) fun _ _ => lexemes_markup_ne_text]
            simp
          · rw [lexemes_text hc]
            simp [consText, hc]

end ModInstall.Markup
