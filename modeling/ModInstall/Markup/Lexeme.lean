import ModInstall.Markup.Closer

/-! # Lexemes

    A source is cut into runs of text and pieces of markup.  Each lexeme knows
    the source it was read from (`Lexeme.source`), so nothing of the source is
    lost; `lexemes` gives those in front of the first fault, and the fault.
    Whether tags match, and whether their attributes are well written, is not
    asked here. -/

namespace ModInstall.Markup

/-- A piece of a source. -/
inductive Lexeme
  /-- A run of text, entities as written. -/
  | text (run : List Char)
  /-- A literal section; its content stands for itself. -/
  | literal (content : List Char)
  /-- A comment, a document type or a processing instruction, as written. -/
  | ignored (written : List Char)
  /-- A start tag, without its `<` and `>`. -/
  | openTag (tag : List Char)
  /-- The tag of an empty element, without its `<` and `/>`. -/
  | emptyTag (tag : List Char)
  /-- An end tag, without its `</` and `>`. -/
  | closeTag (tag : List Char)
deriving DecidableEq

/-- What is wrong with a piece of markup. -/
inductive LexicalError
  | unclosedTag
  | unknownMarkup
  | unclosedLiteral
  | unclosedComment
  | unclosedDoctype
  | unclosedInstruction
  | namelessDoctype
deriving DecidableEq

/-- The wording of a wrong piece of markup. -/
def LexicalError.message : LexicalError → String
  | .unclosedTag         => "syntax error: tag not closed: `>` not found before end of input"
  | .unknownMarkup       => "syntax error: unknown or missed symbol in markup"
  | .unclosedLiteral     => "syntax error: CDATA not closed: `]]>` not found before end of input"
  | .unclosedComment     => "syntax error: comment not closed: `-->` not found before end of input"
  | .unclosedDoctype     => "syntax error: DOCTYPE not closed: `>` not found before end of input"
  | .unclosedInstruction =>
      "syntax error: processing instruction or xml declaration not closed: "
        ++ "`?>` not found before end of input"
  | .namelessDoctype     =>
      "ill-formed document: `<!DOCTYPE>` declaration does not contain a name of a document type"

namespace Lexeme

/-- What opens a literal section, behind `<!`. -/
def literalOpening : List Char := ['[', 'C', 'D', 'A', 'T', 'A', '[']

/-- What a document type begins with, behind `<!`  and in capital letters. -/
def doctypeKeyword : List Char := ['D', 'O', 'C', 'T', 'Y', 'P', 'E']

/-- The text that a lexeme was read from. -/
def source : Lexeme → List Char
  | .text run        => run
  | .literal content => '<' :: '!' :: literalOpening ++ content ++ [']', ']', '>']
  | .ignored written => written
  | .openTag tag     => '<' :: tag ++ ['>']
  | .emptyTag tag    => '<' :: tag ++ ['/', '>']
  | .closeTag tag    => '<' :: '/' :: tag ++ ['>']

/-- A literal section, from behind `<!`. -/
def readLiteral (cs : List Char) : Except LexicalError (Lexeme × List Char) :=
  match Closer.literal.read cs with
  | none => .error .unclosedLiteral
  | some (before, rest) =>
      if literalOpening.isPrefixOf before then
        .ok (.literal ((before.drop literalOpening.length).dropLast.dropLast), rest)
      else .error .unclosedLiteral

/-- A comment, from behind `<!`. -/
def readComment (cs : List Char) : Except LexicalError (Lexeme × List Char) :=
  match Closer.comment.read cs with
  | none => .error .unclosedComment
  | some (before, rest) =>
      if ['-', '-'].isPrefixOf before then .ok (.ignored ('<' :: '!' :: before ++ ['>']), rest)
      else .error .unclosedComment

/-- A document type, from behind `<!`. -/
def readDoctype (cs : List Char) : Except LexicalError (Lexeme × List Char) :=
  match Closer.doctype.read cs with
  | none => .error .unclosedDoctype
  | some (before, rest) =>
      if (before.take doctypeKeyword.length).map Char.toUpper = doctypeKeyword then
        if (before.drop doctypeKeyword.length).all isSpace then .error .namelessDoctype
        else .ok (.ignored ('<' :: '!' :: before ++ ['>']), rest)
      else .error .unclosedDoctype

/-- A processing instruction, from behind `<?`. -/
def readInstruction (cs : List Char) : Except LexicalError (Lexeme × List Char) :=
  match Closer.instruction.read cs with
  | none                => .error .unclosedInstruction
  | some ([], _)        => .error .unclosedInstruction
  | some (before, rest) => .ok (.ignored ('<' :: '?' :: before ++ ['>']), rest)

/-- The lexeme for what stands between the `<` and the `>` of a tag. -/
def ofTag : List Char → Lexeme
  | '/' :: tag => .closeTag tag
  | tag        => if tag.getLast? = some '/' then .emptyTag tag.dropLast else .openTag tag

/-- A tag, from behind `<`. -/
def readTag (cs : List Char) : Except LexicalError (Lexeme × List Char) :=
  match Closer.tag.read cs with
  | none             => .error .unclosedTag
  | some (tag, rest) => .ok (ofTag tag, rest)

/-- A piece of markup, from behind `<`. -/
def readMarkup : List Char → Except LexicalError (Lexeme × List Char)
  | '!' :: cs =>
      match cs.head? with
      | some '['            => readLiteral cs
      | some '-'            => readComment cs
      | some 'D' | some 'd' => readDoctype cs
      | _                   => .error .unknownMarkup
  | '?' :: cs => readInstruction cs
  | cs        => readTag cs

/-- The first lexeme of a source that is not empty, given as `c :: cs`. -/
def read (c : Char) (cs : List Char) : Except LexicalError (Lexeme × List Char) :=
  if c = '<' then readMarkup cs
  else .ok (.text (c :: cs.takeWhile (· != '<')), cs.dropWhile (· != '<'))

theorem readMarkup_length_lt {cs rest : List Char} {l : Lexeme}
    (h : readMarkup cs = .ok (l, rest)) : rest.length ≤ cs.length := by
  have key : ∀ {σ : Type} {k : Closer σ} {cs before after : List Char},
      k.read cs = some (before, after) → after.length ≤ cs.length :=
    fun hk => Nat.le_of_lt (Closer.read_length_lt hk)
  unfold readMarkup at h
  split at h
  · split at h
    · unfold readLiteral at h; grind
    · unfold readComment at h; grind
    · unfold readDoctype at h; grind
    · unfold readDoctype at h; grind
    · simp at h
  · unfold readInstruction at h; grind
  · unfold readTag at h; grind

theorem read_length_le {c : Char} {cs rest : List Char} {l : Lexeme}
    (h : read c cs = .ok (l, rest)) : rest.length ≤ cs.length := by
  unfold read at h
  split at h
  · exact readMarkup_length_lt h
  · obtain ⟨_, rfl⟩ := Prod.mk.inj (Except.ok.inj h)
    exact (List.dropWhile_suffix _).length_le

end Lexeme

/-- The lexemes of a source up to its end or its first fault. -/
def lexemes : List Char → List Lexeme × Option LexicalError
  | []      => ([], none)
  | c :: cs =>
      match _h : Lexeme.read c cs with
      | .error e      => ([], some e)
      | .ok (l, rest) =>
          let (ls, fault) := lexemes rest
          (l :: ls, fault)
termination_by cs => cs.length
decreasing_by exact Nat.lt_succ_of_le (Lexeme.read_length_le _h)

end ModInstall.Markup
