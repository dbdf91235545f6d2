import Mathlib.Data.List.Chain
import ModInstall.Proofs.Markup.Lexing

/-! # Sources are cut without loss

    Each lexeme knows its source, and the sources of the lexemes of a text,
    one after the other, are the text (`Cut.source_eq`).  Most kinds of
    markup keep what they were read from; a literal section keeps its content
    alone, and what stands around it is known from where its closer stops.
    Two runs of text never stand side by side, and every other lexeme has a
    `<`, so a stretch of lexemes without a `<` is one run of text at most
    (`Cut.eq_text_of_not_mem`). -/

namespace ModInstall.Markup

namespace Closer

variable {σ : Type} {k : Closer σ} {s : σ}

/-- What was read leads to a state that closes. -/
theorem readFrom_closes {seen cs before after : List Char}
    (h : k.readFrom s seen cs = some (before, after)) :
    ∃ read, before = seen.reverse ++ read ∧ k.closes (read.foldl k.step s) = true := by
  induction cs generalizing s seen with
  | nil => exact nomatch h
  | cons c cs ih =>
      rw [readFrom] at h
      split at h
      · next hc =>
          obtain ⟨rfl, rfl⟩ := Prod.mk.inj (Option.some.inj h)
          exact ⟨[], (List.append_nil _).symm, hc.2⟩
      · obtain ⟨read, rfl, hclosed⟩ := ih h
        exact ⟨c :: read, by simp, hclosed⟩

/-- What is cut off leads from the start to a state that closes. -/
theorem read_closes {cs before after : List Char} (h : k.read cs = some (before, after)) :
    k.closes (before.foldl k.step k.start) = true := by
  obtain ⟨read, rfl, hclosed⟩ := readFrom_closes h
  exact hclosed

/-- Brackets are counted only where one has just been read. -/
theorem exists_bracket {cs : List Char} (h : cs.foldl literal.step 0 ≠ 0) :
    ∃ ds, cs = ds ++ [']'] ∧
      cs.foldl literal.step 0 = if ds.foldl literal.step 0 = 0 then 1 else 2 := by
  cases hlast : cs.getLast? with
  | none =>
      rw [List.getLast?_eq_none_iff.mp hlast] at h
      exact absurd rfl h
  | some c =>
      obtain ⟨ds, rfl⟩ := List.getLast?_eq_some_iff.mp hlast
      rw [List.foldl_append] at h ⊢
      by_cases hc : c = ']'
      · subst hc
        exact ⟨ds, rfl, rfl⟩
      · exact absurd (if_neg hc) h

/-- A literal section is closed behind two brackets. -/
theorem exists_brackets {cs : List Char} (h : literal.closes (cs.foldl literal.step 0) = true) :
    ∃ ds, cs = ds ++ [']', ']'] := by
  have htwo : cs.foldl literal.step 0 = 2 := beq_iff_eq.mp h
  obtain ⟨ds, rfl, hstate⟩ := exists_bracket (by rw [htwo]; decide)
  have hone : ds.foldl literal.step 0 ≠ 0 := by
    intro hzero
    rw [htwo, if_pos hzero] at hstate
    exact absurd hstate (by decide)
  obtain ⟨es, rfl, -⟩ := exists_bracket hone
  exact ⟨es, List.append_assoc ..⟩

end Closer

namespace Lexeme

variable {l : Lexeme} {cs rest : List Char}

/-- What opens a literal section has no part in the brackets that close it. -/
theorem exists_content_of_prefix {ds : List Char} (h : literalOpening <+: ds ++ [']', ']']) :
    ∃ content, ds = literalOpening ++ content := by
  obtain ⟨after, h⟩ := h
  rcases List.append_eq_append_iff.mp h with ⟨content, rfl, -⟩ | ⟨shared, hopening, hshared⟩
  · exact ⟨content, rfl⟩
  · cases hlast : shared.getLast? with
    | none =>
        rw [List.getLast?_eq_none_iff.mp hlast, List.append_nil] at hopening
        exact ⟨[], by rw [hopening, List.append_nil]⟩
    | some c =>
        -- the last character of the opening is no closing bracket
        have hbracket : c ∈ [']', ']'] := by
          rw [hshared]
          exact List.mem_append_left _ (List.mem_of_getLast? hlast)
        have hc : literalOpening.getLast? = some c := by
          rw [hopening, List.getLast?_append, hlast]
          rfl
        obtain rfl : '[' = c := Option.some.inj hc
        exact absurd hbracket (by decide)

/-- The source of a literal section is what it was read from, its brackets put
    back. -/
theorem source_readLiteral (h : readLiteral cs = .ok (l, rest)) :
    '<' :: '!' :: cs = l.source ++ rest := by
  unfold readLiteral at h
  split at h
  · exact nomatch h
  · next before after hread =>
      split at h
      · next hopening =>
          obtain ⟨rfl, rfl⟩ := Prod.mk.inj (Except.ok.inj h)
          obtain ⟨ds, rfl⟩ := Closer.exists_brackets (Closer.read_closes hread)
          obtain ⟨content, rfl⟩ :=
            exists_content_of_prefix (List.isPrefixOf_iff_prefix.mp hopening)
          rw [Closer.read_eq_some hread]
          simp [source, literalOpening]
      · exact nomatch h

/-- A tag keeps all but its angle brackets. -/
theorem source_ofTag (tag : List Char) : (ofTag tag).source = '<' :: tag ++ ['>'] := by
  unfold ofTag
  split
  · rfl
  · split
    · next hlast =>
        obtain ⟨front, rfl⟩ := List.getLast?_eq_some_iff.mp hlast
        simp [source]
    · rfl

/-- The source of a comment is what it was read from. -/
theorem source_readComment (h : readComment cs = .ok (l, rest)) :
    '<' :: '!' :: cs = l.source ++ rest := by
  unfold readComment at h
  split at h
  · exact nomatch h
  · next before after hread =>
      split at h
      · obtain ⟨rfl, rfl⟩ := Prod.mk.inj (Except.ok.inj h)
        rw [Closer.read_eq_some hread]
        simp [source]
      · exact nomatch h

theorem source_readDoctype (h : readDoctype cs = .ok (l, rest)) :
    '<' :: '!' :: cs = l.source ++ rest := by
  unfold readDoctype at h
  split at h
  · exact nomatch h
  · next before after hread =>
      split at h
      · split at h
        · exact nomatch h
        · obtain ⟨rfl, rfl⟩ := Prod.mk.inj (Except.ok.inj h)
          rw [Closer.read_eq_some hread]
          simp [source]
      · exact nomatch h

theorem source_readInstruction (h : readInstruction cs = .ok (l, rest)) :
    '<' :: '?' :: cs = l.source ++ rest := by
  unfold readInstruction at h
  split at h
  · exact nomatch h
  · exact nomatch h
  · next before after _ hread =>
      obtain ⟨rfl, rfl⟩ := Prod.mk.inj (Except.ok.inj h)
      rw [Closer.read_eq_some hread]
      simp [source]

theorem source_readTag (h : readTag cs = .ok (l, rest)) : '<' :: cs = l.source ++ rest := by
  unfold readTag at h
  split at h
  · exact nomatch h
  · next tag after hread =>
      obtain ⟨rfl, rfl⟩ := Prod.mk.inj (Except.ok.inj h)
      rw [Closer.read_eq_some hread, source_ofTag]
      simp

/-- Whatever markup is read, its source is what was read. -/
theorem source_readMarkup (h : readMarkup cs = .ok (l, rest)) : '<' :: cs = l.source ++ rest := by
  unfold readMarkup at h
  split at h
  · split at h
    · exact source_readLiteral h
    · exact source_readComment h
    · exact source_readDoctype h
    · exact source_readDoctype h
    · exact nomatch h
  · exact source_readInstruction h
  · exact source_readTag h

/-- The source of the first lexeme is what a source begins with. -/
theorem source_read {c : Char} (h : read c cs = .ok (l, rest)) : c :: cs = l.source ++ rest := by
  unfold read at h
  split at h
  · next hc =>
      rw [hc]
      exact source_readMarkup h
  · obtain ⟨rfl, rfl⟩ := Prod.mk.inj (Except.ok.inj h)
    simp [source]

/-- Whether a lexeme is a run of text. -/
def isText : Lexeme → Bool
  | .text _ => true
  | .literal _ | .ignored _ | .openTag _ | .emptyTag _ | .closeTag _ => false

theorem isText_eq_true_iff : l.isText = true ↔ ∃ run, l = .text run := by
  cases l <;> simp [isText]

theorem isText_readMarkup (h : readMarkup cs = .ok (l, rest)) : l.isText = false := by
  rw [← Bool.not_eq_true, isText_eq_true_iff]
  rintro ⟨run, rfl⟩
  exact readMarkup_ne_text h

end Lexeme

/-- A source is cut into lexemes, to its end. -/
inductive Cut : List Char → List Lexeme → Prop
  | nil : Cut [] []
  | cons {c : Char} {cs rest : List Char} {l : Lexeme} {ls : List Lexeme} :
      Lexeme.read c cs = .ok (l, rest) → Cut rest ls → Cut (c :: cs) (l :: ls)

/-- A source that cannot be cut at its front gives no lexemes. -/
theorem lexemes_error {c : Char} {cs : List Char} {e : LexicalError}
    (h : Lexeme.read c cs = .error e) : lexemes (c :: cs) = ([], some e) := by
  rw [lexemes]
  split
  · next he => rw [Except.error.inj (h.symm.trans he)]
  · next he => cases h.symm.trans he

/-- A source without a fault is cut to its end. -/
theorem cut_of_lexemes {cs : List Char} {ls : List Lexeme} (h : lexemes cs = (ls, none)) :
    Cut cs ls := by
  induction hlen : cs.length using Nat.strongRecOn generalizing cs ls with
  | ind n ih =>
      cases cs with
      | nil =>
          rw [lexemes_nil] at h
          obtain ⟨rfl, -⟩ := Prod.mk.inj h
          exact .nil
      | cons c cs =>
          cases hread : Lexeme.read c cs with
          | error e =>
              rw [lexemes_error hread] at h
              exact nomatch (Prod.mk.inj h).2
          | ok p =>
              obtain ⟨l, rest⟩ := p
              rw [lexemes_cons hread] at h
              obtain ⟨rfl, hfault⟩ := Prod.mk.inj h
              have hshort := Lexeme.read_length_le hread
              rw [List.length_cons] at hlen
              exact .cons hread (ih rest.length (by omega) (Prod.ext rfl hfault) rfl)

namespace Cut

variable {cs : List Char} {ls : List Lexeme}

/-- **Nothing of a source is lost**: its lexemes, one after the other, are the
    whole of it. -/
theorem source_eq (h : Cut cs ls) : ls.flatMap Lexeme.source = cs := by
  induction h with
  | nil => rfl
  | cons hread _ ih => rw [List.flatMap_cons, ih, Lexeme.source_read hread]

/-- Markup begins with `<`. -/
theorem mem_source (h : Cut cs ls) : ∀ l ∈ ls, l.isText = false → '<' ∈ l.source := by
  induction h with
  | nil => exact fun _ hl => absurd hl List.not_mem_nil
  | @cons c cs rest l ls hread _ ih =>
      refine List.forall_mem_cons.mpr ⟨fun htext => ?_, ih⟩
      by_cases hc : c = '<'
      · have hsource := Lexeme.source_read hread
        cases hl : l.source with
        | nil =>
            rw [hl, List.nil_append] at hsource
            have hshort := Lexeme.read_length_le hread
            rw [← hsource, List.length_cons] at hshort
            exact absurd hshort (by omega)
        | cons d ds =>
            rw [hl, List.cons_append] at hsource
            rw [← (List.cons.inj hsource).1, hc]
            exact List.mem_cons_self ..
      · rw [Lexeme.read, if_neg hc] at hread
        obtain ⟨rfl, -⟩ := Prod.mk.inj (Except.ok.inj hread)
        exact absurd htext Bool.noConfusion

/-- A run of text goes on to the next markup, so no two stand side by side. -/
theorem isChain (h : Cut cs ls) :
    ls.IsChain fun l l' => ¬(l.isText = true ∧ l'.isText = true) := by
  induction h with
  | nil => exact .nil
  | @cons c cs rest l ls hread hrest ih =>
      cases hrest with
      | nil => exact .singleton l
      | @cons c' cs' rest' l' ls' hread' hrest' =>
          refine .cons_cons ?_ ih
          rintro ⟨htext, htext'⟩
          by_cases hc : c = '<'
          · rw [Lexeme.read, if_pos hc] at hread
            rw [Lexeme.isText_readMarkup hread] at htext
            exact absurd htext Bool.false_ne_true
          · -- behind a run of text stands markup
            rw [Lexeme.read, if_neg hc] at hread
            obtain ⟨-, hbehind⟩ := Prod.mk.inj (Except.ok.inj hread)
            have hstop := List.head?_dropWhile_not (· != '<') cs
            rw [hbehind] at hstop
            have hc' : c' = '<' := by simpa using hstop
            rw [Lexeme.read, if_pos hc'] at hread'
            rw [Lexeme.isText_readMarkup hread'] at htext'
            exact absurd htext' Bool.false_ne_true

/-- A stretch of lexemes without markup is one run of text at most. -/
theorem eq_text_of_not_mem {before inner behind : List Lexeme}
    (h : Cut cs (before ++ inner ++ behind)) (hinner : '<' ∉ inner.flatMap Lexeme.source) :
    inner = [] ∨ ∃ run, inner = [.text run] := by
  have htext : ∀ l ∈ inner, l.isText = true := by
    intro l hl
    by_contra hmarkup
    have hmem : l ∈ before ++ inner ++ behind :=
      List.mem_append_left _ (List.mem_append_right _ hl)
    have hsource := h.mem_source l hmem (Bool.eq_false_iff.mpr hmarkup)
    exact hinner (List.mem_flatMap.mpr ⟨l, hl, hsource⟩)
  have hchain := h.isChain.infix (List.infix_append before inner behind)
  match inner with
  | [] => exact Or.inl rfl
  | [l] =>
      obtain ⟨run, rfl⟩ := Lexeme.isText_eq_true_iff.mp (htext l (List.mem_cons_self ..))
      exact Or.inr ⟨run, rfl⟩
  | l :: l' :: ls =>
      obtain ⟨hl, hls⟩ := List.forall_mem_cons.mp htext
      exact absurd ⟨hl, hls l' (List.mem_cons_self ..)⟩ (List.isChain_cons_cons.mp hchain).1

end Cut

end ModInstall.Markup
