import ModInstall.Proofs.Markup.Syntax

/-! # What the depth limit decides

    Two readings of one source under different limits go side by side, lexeme
    by lexeme.  A lexeme that opens a level within both limits is read alike
    (`step_eq_step`), and one that goes beyond the lower limit ends that
    reading before anything else about it is looked at (`step_tooDeep`).  So
    the lower reading is the higher one up to the point where it is too deep;
    and since the highest level that was opened is the nesting of the tree in
    the end, whether it comes to that point can be told from the tree. -/

namespace ModInstall.Markup

namespace Builder

variable {b b' : Builder} {limit limit' : Nat} {l : Lexeme}

/-! ## One lexeme -/

/-- A start tag is read alike under all limits that let it be opened. -/
theorem start_eq_start {tag : List Char} (h : b.stack.length < limit)
    (h' : b.stack.length < limit') : b.start limit tag = b.start limit' tag := by
  rw [start, start, if_neg (Nat.not_le.mpr h), if_neg (Nat.not_le.mpr h')]

/-- A lexeme is read alike under all limits that let its level be opened. -/
theorem step_eq_step (h : b.opens l ≤ limit) (h' : b.opens l ≤ limit') :
    b.step limit l = b.step limit' l := by
  cases l with
  | openTag tag | emptyTag tag => rw [step, step, start_eq_start h h']
  | closeTag | text | literal | ignored => rfl

/-- A lexeme that opens a level beyond the limit is refused for that, be its
    tag as it may. -/
theorem step_tooDeep (h : limit < b.opens l) : b.step limit l = .error (.tooDeep limit) := by
  cases l with
  | openTag tag | emptyTag tag =>
      have hstart : b.start limit tag = .error (.tooDeep limit) := if_pos (Nat.le_of_lt_succ h)
      rw [step, hstart]
      rfl
  | closeTag | text | literal | ignored => exact absurd h (Nat.not_lt_zero _)

/-- **One lexeme**: a lower limit may refuse it as too deep, and changes
    nothing else. -/
theorem step_sameUnless (h : limit ≤ limit') (b : Builder) (l : Lexeme) :
    SameUnless (· = .tooDeep limit) (b.step limit l) (b.step limit' l) := by
  by_cases hl : b.opens l ≤ limit
  · rw [step_eq_step hl (Nat.le_trans hl h)]
    exact .refl _
  · rw [step_tooDeep (Nat.not_le.mp hl)]
    exact Or.inr ⟨_, rfl, rfl⟩

/-! ## A whole source -/

/-- A lower limit changes nothing but where the reading may end. -/
theorem run_sameUnless (h : limit ≤ limit') (ls : List Lexeme) (b : Builder) :
    SameUnless (· = .tooDeep limit) (ls.foldlM (step limit) b) (ls.foldlM (step limit') b) := by
  induction ls generalizing b with
  | nil => exact .refl _
  | cons l ls ih =>
      rw [List.foldlM_cons, List.foldlM_cons]
      exact (step_sameUnless h b l).bind ih

end Builder

namespace Document

variable {limit limit' : Nat}

/-- A whole source: the lower limit may refuse it as too deep, and changes
    nothing else. -/
theorem parse_sameUnless (h : limit ≤ limit') (source : String) :
    SameUnless (· = .tooDeep limit) (parse limit source) (parse limit' source) := by
  refine (Builder.run_sameUnless h _ {}).bind fun b => ?_
  exact .refl _

/-- **The depth limit is exact and monotone.**  Of two limits, the lower one
    loads what the higher one loads if the tree nests no deeper than it says,
    and refuses it as too deep otherwise.  What the lower one loads is within
    it, and loads as the same under the higher one; and what is wrong for
    another reason than its depth is wrong for that reason under both. -/
theorem parse_depth_limit (h : limit ≤ limit') (source : String) :
    (∀ d, parse limit' source = .ok d →
      parse limit source
        = if d.root.nesting ≤ limit then .ok d else .error (.tooDeep limit)) ∧
    (∀ d, parse limit source = .ok d →
      d.root.nesting ≤ limit ∧ parse limit' source = .ok d) ∧
    (∀ e, parse limit source = .error e → e ≠ .tooDeep limit → parse limit' source = .error e) := by
  have hsame := parse_sameUnless h source
  refine ⟨?exact, ?loads, ?fails⟩
  case exact =>
    intro d hd
    by_cases hn : d.root.nesting ≤ limit
    · rw [if_pos hn]
      exact parse_eq_ok_iff.mpr ⟨(parse_eq_ok_iff.mp hd).1, hn⟩
    · rw [if_neg hn]
      rcases hsame with heq | ⟨e, he, rfl⟩
      · -- a document that loads within the limit nests within it
        exact absurd (nesting_le_of_parse (heq.trans hd)) hn
      · exact he
  case loads =>
    intro d hd
    rw [hd] at hsame
    exact ⟨nesting_le_of_parse hd, hsame.eq_ok⟩
  case fails =>
    intro e he hne
    rw [he] at hsame
    exact hsame.eq_error hne

/-- One level more than the limit is refused, and an entity that no one knows
    is told of first if it comes first. -/
theorem parse_depth_limit_oneLevel :
    1 ≤ 2 ∧
      parse 2 "<a><b/></a>"
        = .ok ⟨{ name := "a", children := [{ name := "b", innerXml := some "" }] }⟩ ∧
      parse 1 "<a><b/></a>" = .error (.tooDeep 1) ∧
      parse 2 "<a>t</a>" = .ok ⟨{ name := "a", text := "t", innerXml := some "t" }⟩ ∧
      parse 1 "<a>&x;<b/></a>" = .error (.markup (.badEntity (.unknown 1 2 "x"))) ∧
      parse 2 "<a>&x;<b/></a>" = .error (.markup (.badEntity (.unknown 1 2 "x"))) := by
  have hdeep : parse 2 "<a><b/></a>"
      = .ok ⟨{ name := "a", children := [{ name := "b", innerXml := some "" }] }⟩ := by
    decide +kernel
  have hflat : parse 1 "<a>t</a>" = .ok ⟨{ name := "a", text := "t", innerXml := some "t" }⟩ := by
    decide +kernel
  have hentity : parse 1 "<a>&x;<b/></a>" = .error (.markup (.badEntity (.unknown 1 2 "x"))) := by
    decide +kernel
  have hlimits := parse_depth_limit (show 1 ≤ 2 by decide)
  refine ⟨by decide, hdeep, (hlimits _).1 _ hdeep, ((hlimits _).2.1 _ hflat).2, hentity, ?_⟩
  exact (hlimits _).2.2 _ hentity (by decide)

end Document

end ModInstall.Markup
