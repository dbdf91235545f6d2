import ModInstall.Markup.Document
import ModInstall.Proofs.Markup.Tree
import ModInstall.Proofs.Text.Split

/-! # What paths lead to

    A path may be followed in stages: what `p/q` leads to is what `q` leads to
    from each element at the end of `p`, in order (`select_join`).  The short
    paths of configurations lead to children, or to the children of children
    of one name, and that is how theorems speak of them (`mem_select_below`).
    Wherever a path leads, it stays inside the tree (`Within`). -/

namespace ModInstall

namespace Markup

namespace Element

/-! ## Stages -/

/-- Joined paths have their segments one after the other. -/
theorem segments_join (p q : String) : segments (p ++ "/" ++ q) = segments p ++ segments q := by
  have hchars : (p ++ "/" ++ q).toList = p.toList ++ '/' :: q.toList := by simp
  rw [segments, Text.piecesOf, hchars, Text.pieces_append (by decide), List.map_append,
    List.filter_append]
  rfl

theorem segments_slash (path : String) : segments ("/" ++ path) = segments path := by
  simp [segments, Text.piecesOf, Text.pieces]

/-- Segments may be followed in two parts. -/
theorem descend_append (ss ts : List String) (es : List Element) :
    descend (ss ++ ts) es = descend ts (descend ss es) :=
  List.foldl_append

/-- One step down is taken from each element on its own. -/
theorem stepDown_flatMap {α : Type} (segment : String) (as : List α) (f : α → List Element) :
    stepDown segment (as.flatMap f) = as.flatMap fun a => stepDown segment (f a) :=
  List.flatMap_assoc

/-- Elements are walked down from one by one. -/
theorem descend_flatMap {α : Type} (segments : List String) (as : List α) (f : α → List Element) :
    descend segments (as.flatMap f) = as.flatMap fun a => descend segments (f a) := by
  induction segments generalizing f with
  | nil => rfl
  | cons segment segments ih =>
      show descend segments (stepDown segment (as.flatMap f)) = _
      rw [stepDown_flatMap, ih]
      rfl

/-- **A path may be followed in stages.** -/
theorem select_join (e : Element) (p q : String) :
    e.select (p ++ "/" ++ q) = (e.select p).flatMap (·.select q) := by
  calc e.select (p ++ "/" ++ q)
    _ = descend (segments q) (e.select p) := by rw [select, segments_join, descend_append]; rfl
    _ = descend (segments q) ((e.select p).flatMap ([·])) := by rw [List.flatMap_singleton']
    _ = (e.select p).flatMap (·.select q) := descend_flatMap ..

/-! ## Short paths -/

variable {e c : Element} {path name : String}

/-- To a name that is not `*`, only elements of the name answer. -/
theorem answers_iff (hname : name ≠ "*") : c.answers name = true ↔ c.name = name := by
  rw [answers, beq_false_of_ne hname, Bool.false_or, beq_iff_eq]

/-- A path of one name leads to the children of that name. -/
theorem select_child (hpath : segments path = [name]) :
    e.select path = e.children.filter (answers name) := by
  rw [select, hpath]
  exact List.flatMap_singleton ..

/-- A path of a name and `*` leads to all children of the children of that
    name. -/
theorem mem_select_below (name : String) (hpath : segments path = [name, "*"])
    (hname : name ≠ "*") :
    c ∈ e.select path ↔ ∃ l ∈ e.children, l.name = name ∧ c ∈ l.children := by
  have hlists : e.select path
      = (e.children.filter (answers name)).flatMap fun l => l.children.filter (answers "*") := by
    rw [select, hpath]
    show stepDown "*" (stepDown name [e]) = _
    rw [stepDown, stepDown, List.flatMap_singleton]
  rw [hlists, List.mem_flatMap]
  constructor
  · rintro ⟨l, hl, hc⟩
    obtain ⟨hmem, ha⟩ := List.mem_filter.mp hl
    exact ⟨l, hmem, (answers_iff hname).mp ha, (List.mem_filter.mp hc).1⟩
  · rintro ⟨l, hmem, hl, hc⟩
    exact ⟨l, List.mem_filter.mpr ⟨hmem, (answers_iff hname).mpr hl⟩,
      List.mem_filter.mpr ⟨hc, rfl⟩⟩

/-- The child that is found has the name. -/
theorem selectFirst?_eq_some (hpath : segments name = [name]) (hname : name ≠ "*")
    (h : e.selectFirst? name = some c) : c ∈ e.children ∧ c.name = name := by
  rw [selectFirst?, select_child hpath] at h
  obtain ⟨hc, ha⟩ := List.mem_filter.mp (List.mem_of_head? h)
  exact ⟨hc, (answers_iff hname).mp ha⟩

theorem selectFirst?_eq_none (hpath : segments name = [name]) (hname : name ≠ "*")
    (h : e.selectFirst? name = none) : ∀ c ∈ e.children, c.name ≠ name := by
  rw [selectFirst?, select_child hpath, List.head?_eq_none_iff, List.filter_eq_nil_iff] at h
  exact fun c hc he => h c hc ((answers_iff hname).mpr he)

/-! ## Inside a tree -/

/-- An element is in a tree: it is the root, or a child of one that is. -/
inductive Within (root : Element) : Element → Prop
  | root : Within root root
  | child {e c : Element} : Within root e → c ∈ e.children → Within root c

/-- Steps down do not leave an element. -/
theorem Within.of_mem_descend {root : Element} {segments : List String} {es : List Element}
    (h : ∀ e ∈ es, Within root e) : ∀ c ∈ descend segments es, Within root c := by
  induction segments generalizing es with
  | nil => exact h
  | cons segment segments ih =>
      refine ih fun c hc => ?_
      obtain ⟨e, he, hce⟩ := List.mem_flatMap.mp hc
      exact .child (h e he) (List.mem_filter.mp hce).1

/-- What a path leads to is inside. -/
theorem Within.of_mem_select {root : Element} (h : Within root e) (hc : c ∈ e.select path) :
    Within root c := by
  refine of_mem_descend (fun d hd => ?_) c hc
  rw [List.mem_singleton.mp hd]
  exact h

theorem Within.of_selectFirst? {root : Element} (h : Within root e)
    (hc : e.selectFirst? path = some c) : Within root c :=
  h.of_mem_select (List.mem_of_head? hc)

end Element

namespace Document

/-- An element is in a document. -/
def Contains (d : Document) (e : Element) : Prop :=
  d.root.Within e

/-- Where the first segment of a path ends does not depend on what is joined
    to the path. -/
theorem takeWhile_join (cs ys : List Char) :
    (cs ++ '/' :: ys).takeWhile (· != '/') = cs.takeWhile (· != '/') := by
  induction cs with
  | nil => rfl
  | cons c cs ih => rw [List.cons_append, List.takeWhile_cons, List.takeWhile_cons, ih]

/-- What is joined to a path comes behind its first segment. -/
theorem dropWhile_join (cs ys : List Char) :
    (cs ++ '/' :: ys).dropWhile (· != '/') = cs.dropWhile (· != '/') ++ '/' :: ys := by
  induction cs with
  | nil => rfl
  | cons c cs ih =>
      rw [List.cons_append, List.dropWhile_cons, List.dropWhile_cons, ih]
      split <;> rfl

/-- A path that begins with `/` starts above the root. -/
theorem select_of_slash (d : Document) {path : String} {cs : List Char}
    (h : path.toList = '/' :: cs) :
    d.select path =
      if d.root.answers (String.ofList (cs.takeWhile (· != '/'))) then
        d.root.select (String.ofList (cs.dropWhile (· != '/')))
      else [] := by
  rw [select, h]
  rfl

/-- Any other path starts below the root. -/
theorem select_of_ne_slash (d : Document) {path : String} {c : Char} {cs : List Char}
    (h : path.toList = c :: cs) (hc : c ≠ '/') : d.select path = d.root.select path := by
  rw [select, h]
  split
  · next heq => exact absurd (List.cons.inj heq).1 hc
  · rfl

/-- A path from above the root names the root and goes on below it. -/
theorem select_absolute {d : Document} {path name rest : String}
    (hpath : path.toList = '/' :: (name.toList ++ '/' :: rest.toList)) (hname : '/' ∉ name.toList) :
    d.select path = if d.root.answers name then d.root.select rest else [] := by
  have hinside : ∀ c ∈ name.toList, (c != '/') = true := by
    intro c hc
    exact bne_iff_ne.mpr fun he => hname (he ▸ hc)
  rw [select_of_slash d hpath]
  simp [List.takeWhile_append_of_pos hinside, List.dropWhile_append_of_pos hinside,
    Element.select, Element.segments_slash]

/-- **Paths of a document may be followed in stages**, too. -/
theorem select_join (d : Document) {p : String} (hp : p ≠ "") (q : String) :
    d.select (p ++ "/" ++ q) = (d.select p).flatMap (·.select q) := by
  cases hcs : p.toList with
  | nil => exact absurd (String.toList_eq_nil_iff.mp hcs) hp
  | cons c cs =>
      have hchars : (p ++ "/" ++ q).toList = c :: (cs ++ '/' :: q.toList) := by simp [hcs]
      by_cases hc : c = '/'
      · -- the first stage names the root, and the rest starts below it
        subst hc
        have hrest : String.ofList (cs.dropWhile (· != '/') ++ '/' :: q.toList)
            = String.ofList (cs.dropWhile (· != '/')) ++ "/" ++ q := by
          apply String.toList_injective
          simp
        rw [d.select_of_slash hchars, d.select_of_slash hcs, takeWhile_join, dropWhile_join, hrest,
          Element.select_join]
        split <;> rfl
      · rw [d.select_of_ne_slash hchars hc, d.select_of_ne_slash hcs hc, Element.select_join]

end Document

end Markup

end ModInstall
