import ModInstall.Markup.Element

/-! # Elements as trees

    Induction that reaches the children of an element, and how deep the trees
    below it nest: children nest less deep than their parent, and what a path
    leads to no deeper than where it starts. -/

namespace ModInstall.Markup.Element

/-- Induction on elements, children included. -/
@[elab_as_elim, induction_eliminator]
theorem inductChildren {motive : Element → Prop}
    (node : ∀ e, (∀ c ∈ e.children, motive c) → motive e) : ∀ e, motive e
  | ⟨n, as, cs, t, i⟩ => node ⟨n, as, cs, t, i⟩ fun c _ => inductChildren node c

theorem nesting_eq (e : Element) : e.nesting = 1 + nestingList e.children := by
  cases e
  rfl

/-- Some trees nest as deep as the deepest of them. -/
theorem nestingList_le_iff {n : Nat} {es : List Element} :
    nestingList es ≤ n ↔ ∀ e ∈ es, e.nesting ≤ n := by
  induction es with
  | nil => simp [nestingList]
  | cons e es ih => rw [nestingList, Nat.max_le, ih, List.forall_mem_cons]

/-- A child nests less deep than its parent. -/
theorem nesting_lt_of_mem {e c : Element} (h : c ∈ e.children) : c.nesting < e.nesting := by
  have := nestingList_le_iff.mp (Nat.le_refl (nestingList e.children)) c h
  rw [e.nesting_eq]
  omega

/-- What stands on a level bounds what stands below it. -/
theorem nesting_le_of_mem_descend {n : Nat} {segments : List String} :
    ∀ {es : List Element}, (∀ e ∈ es, e.nesting ≤ n) →
      ∀ e ∈ descend segments es, e.nesting ≤ n := by
  induction segments with
  | nil => intro es h; exact h
  | cons segment segments ih =>
      intro es h
      have hstep : ∀ c ∈ stepDown segment es, c.nesting ≤ n := by
        intro c hc
        obtain ⟨e, he, hce⟩ := List.mem_flatMap.mp hc
        have := nesting_lt_of_mem (List.mem_filter.mp hce).1
        have := h e he
        omega
      exact ih hstep

/-- A path leads to nothing that nests deeper than its start. -/
theorem nesting_le_of_mem_select {e c : Element} {path : String} (h : c ∈ e.select path) :
    c.nesting ≤ e.nesting := by
  refine nesting_le_of_mem_descend ?_ c h
  intro d hd
  obtain rfl := List.mem_singleton.mp hd
  exact Nat.le_refl _

theorem nesting_le_of_selectFirst? {e c : Element} {path : String}
    (h : e.selectFirst? path = some c) : c.nesting ≤ e.nesting :=
  nesting_le_of_mem_select (List.mem_of_head? h)

end ModInstall.Markup.Element
