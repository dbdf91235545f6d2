import ModInstall.Markup.Document
import ModInstall.Proofs.Markup.Tree
import ModInstall.Proofs.Traversal

/-! # How high documents are built

    The reader bounds the number of open elements, lexeme by lexeme; what
    packages need is a bound on the nesting of the tree that comes out.
    `Builder.height` connects them.  It is the nesting that the tree under
    construction has already, open elements counted where they stand, and one
    lexeme raises it to the level that it opens and no further
    (`step_height`).  So the height at the end of a source is the highest
    level that was opened anywhere in it, and at that point it is the nesting
    of the root. -/

namespace ModInstall.Markup

theorem Element.nestingList_reverse (es : List Element) :
    nestingList es.reverse = nestingList es := by
  refine Nat.le_antisymm ?_ ?_
  · refine nestingList_le_iff.mpr fun e he => ?_
    exact nestingList_le_iff.mp (Nat.le_refl _) e (List.mem_reverse.mp he)
  · refine nestingList_le_iff.mpr fun e he => ?_
    exact nestingList_le_iff.mp (Nat.le_refl _) e (List.mem_reverse.mpr he)

/-- An element nests one level deeper than its children. -/
theorem OpenElement.nesting_close (o : OpenElement) :
    o.close.nesting = 1 + Element.nestingList o.children := by
  rw [Element.nesting_eq]
  show 1 + Element.nestingList o.children.reverse = _
  rw [Element.nestingList_reverse]

namespace Builder

/-- The height of the open elements: each with its children, on the level it
    stands on. -/
def openHeight : List OpenElement → Nat
  | [] => 0
  | o :: os => max (os.length + 1 + Element.nestingList o.children) (openHeight os)

/-- The height of what has been built so far. -/
def height (b : Builder) : Nat :=
  max (openHeight b.stack) (b.root.elim 0 Element.nesting)

/-- The level that a lexeme opens: that of the element that begins with it. -/
def opens (b : Builder) : Lexeme → Nat
  | .openTag _ | .emptyTag _ => b.stack.length + 1
  | _ => 0

variable {b b' : Builder} {limit : Nat}

/-- An element that is handed over raises the height to its own, counted from
    the level it stands on. -/
theorem attach_height {e : Element} (h : b.attach e = .ok b') :
    b'.height = max b.height (b.stack.length + e.nesting) := by
  obtain ⟨stack, root⟩ := b
  cases stack with
  | nil =>
      cases root with
      | none =>
          obtain rfl := Except.ok.inj h
          simp [height, openHeight]
      | some r => exact nomatch h
  | cons o os =>
      obtain rfl := Except.ok.inj h
      simp only [height, openHeight, Element.nestingList, List.length_cons]
      omega

/-- An element begins without children, and only where the limit allows. -/
theorem start_eq_ok {tag : List Char} {o : OpenElement} (h : b.start limit tag = .ok o) :
    b.stack.length + 1 ≤ limit ∧ o.children = [] := by
  by_cases hl : limit ≤ b.stack.length
  · rw [start, if_pos hl] at h
    exact nomatch h
  · rw [start, if_neg hl] at h
    obtain ⟨attributes, -, ho⟩ := bind_eq_ok_iff.mp h
    obtain rfl := pure_eq_ok_iff.mp ho
    exact ⟨by omega, rfl⟩

/-- Text and what is passed over leave the height alone. -/
theorem height_of_add {o : OpenElement} {os : List OpenElement} {l : Lexeme} {text : List Char}
    {root : Option Element} :
    height ⟨o.add l text :: os, root⟩ = height ⟨o :: os, root⟩ :=
  rfl

/-- One lexeme raises the height to the level that it opens, which is within
    the limit. -/
theorem step_height {l : Lexeme} (h : b.step limit l = .ok b') :
    b'.height = max b.height (b.opens l) ∧ b.opens l ≤ limit := by
  cases l with
  | openTag tag =>
      obtain ⟨o, ho, hb⟩ := bind_eq_ok_iff.mp h
      obtain rfl := pure_eq_ok_iff.mp hb
      obtain ⟨hl, hc⟩ := start_eq_ok ho
      refine ⟨?_, hl⟩
      simp only [height, openHeight, opens, hc, Element.nestingList]
      omega
  | emptyTag tag =>
      obtain ⟨o, ho, hb⟩ := bind_eq_ok_iff.mp h
      obtain ⟨hl, hc⟩ := start_eq_ok ho
      refine ⟨?_, hl⟩
      -- without children the element adds its own level and no more
      rw [attach_height hb, o.nesting_close, hc]
      rfl
  | closeTag tag =>
      obtain ⟨stack, root⟩ := b
      cases stack with
      | nil => simp [step] at h
      | cons o os =>
          by_cases hn : o.fullName = endName tag
          · simp only [step, if_pos hn] at h
            -- the closed element stands where the open one stood
            rw [attach_height h, o.nesting_close]
            simp only [height, openHeight, opens]
            omega
          · simp [step, hn] at h
  | text run =>
      obtain ⟨stack, root⟩ := b
      cases stack with
      | nil =>
          obtain rfl := Except.ok.inj h
          exact ⟨(Nat.max_zero _).symm, Nat.zero_le _⟩
      | cons o os =>
          obtain ⟨t, -, hb⟩ := bind_eq_ok_iff.mp h
          obtain rfl := pure_eq_ok_iff.mp hb
          exact ⟨by rw [height_of_add]; exact (Nat.max_zero _).symm, Nat.zero_le _⟩
  | literal content | ignored written =>
      obtain ⟨stack, root⟩ := b
      cases stack <;> obtain rfl := Except.ok.inj h <;>
        exact ⟨(Nat.max_zero _).symm, Nat.zero_le _⟩

/-- Building within a limit never rises above it. -/
theorem run_height {ls : List Lexeme} (h : ls.foldlM (step limit) b = .ok b')
    (hb : b.height ≤ limit) : b'.height ≤ limit := by
  induction ls generalizing b with
  | nil =>
      obtain rfl := pure_eq_ok_iff.mp h
      exact hb
  | cons l ls ih =>
      rw [List.foldlM_cons] at h
      obtain ⟨b₁, hstep, hrun⟩ := bind_eq_ok_iff.mp h
      obtain ⟨heq, hle⟩ := step_height hstep
      exact ih hrun (by rw [heq]; exact Nat.max_le.mpr ⟨hb, hle⟩)

/-- A finished document is as high as its root nests. -/
theorem finish_height {d : Document} (h : b.finish = .ok d) : b.height = d.root.nesting := by
  obtain ⟨stack, root⟩ := b
  cases stack with
  | cons o os => exact nomatch h
  | nil =>
      cases root with
      | none => exact nomatch h
      | some root =>
          obtain rfl := Except.ok.inj h
          exact Nat.max_eq_right (Nat.zero_le _)

end Builder

namespace Document

/-- A source loads if there is no fault in it and its lexemes build a
    document. -/
theorem parse_eq_ok_iff_run {limit : Nat} {source : String} {d : Document} :
    parse limit source = .ok d ↔
      ∃ ls b, lexemes (withoutMarks source.toList) = (ls, none) ∧
        ls.foldlM (Builder.step limit) {} = .ok b ∧ b.finish = .ok d := by
  constructor
  · intro h
    obtain ⟨b, hrun, hfinish⟩ := bind_eq_ok_iff.mp h
    cases hf : (lexemes (withoutMarks source.toList)).2 with
    | some e =>
        rw [hf] at hfinish
        exact nomatch hfinish
    | none =>
        rw [hf] at hfinish
        exact ⟨_, b, Prod.ext rfl hf, hrun, hfinish⟩
  · rintro ⟨ls, b, hls, hrun, hfinish⟩
    rw [parse, build, hls]
    exact bind_eq_ok_iff.mpr ⟨b, hrun, hfinish⟩

/-- **The limit holds for the tree**: a document that was loaded within a
    limit does not nest deeper. -/
theorem nesting_le_of_parse {limit : Nat} {source : String} {d : Document}
    (h : parse limit source = .ok d) : d.root.nesting ≤ limit := by
  obtain ⟨ls, b, -, hrun, hfinish⟩ := parse_eq_ok_iff_run.mp h
  rw [← Builder.finish_height hfinish]
  exact Builder.run_height hrun (Nat.zero_le _)

/-- A path in a document leads to nothing that nests deeper than its root. -/
theorem nesting_le_of_mem_select {d : Document} {path : String} {e : Element}
    (h : e ∈ d.select path) : e.nesting ≤ d.root.nesting := by
  rw [select] at h
  split at h
  · dsimp only at h
    split at h
    · exact Element.nesting_le_of_mem_select h
    · exact nomatch h
  · exact Element.nesting_le_of_mem_select h

end Document

end ModInstall.Markup
