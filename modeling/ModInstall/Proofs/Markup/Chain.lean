import ModInstall.Proofs.Markup.Select

/-! # The chains that a path stands for

    A path is followed level by level, but what comes out is in the order of
    the document.  `Chain` says what a path stands for: one step down for each
    of its names, each step to the child at some index.  `places` goes through
    the chains one child after the other, so their indexes ascend, and it
    finds in that order what the walk over the levels finds
    (`map_snd_places`).  A path that is anchored above the root is followed
    the same way, from an element that has the root as its only child. -/

namespace ModInstall.Markup

namespace Element

/-- A chain of steps to children, from an element to another: each step goes to
    the child at the next index, which has the next name unless that is `*`. -/
inductive Chain : Element → List String → List Nat → Element → Prop
  | nil (e : Element) : Chain e [] [] e
  | step {e c x : Element} {i : Nat} {name : String} {names : List String}
      {position : List Nat} :
      e.children[i]? = some c → (name = "*" ∨ c.name = name) → Chain c names position x →
        Chain e (name :: names) (i :: position) x

/-- The parts of a path between its separators that are not empty. -/
def names (path : String) : List String :=
  ((path.toList.splitOn '/').filter (· ≠ [])).map String.ofList

/-- Where some names lead to, with the indexes on the way. -/
def places : List String → Element → List (List Nat × Element)
  | [], e            => [([], e)]
  | name :: names, e =>
      e.children.zipIdx.flatMap fun (c, i) =>
        if c.answers name then (places names c).map fun (position, x) => (i :: position, x)
        else []

variable {e c x : Element} {name : String} {position : List Nat}

/-- The segments that are walked along are the names of the path. -/
theorem segments_eq_names (path : String) : segments path = names path := by
  rw [segments, names, Text.piecesOf, Text.pieces_eq_splitOnP, List.filter_map]
  congr 1
  refine List.filter_congr fun cs _ => ?_
  simp

theorem answers_iff_any : c.answers name = true ↔ name = "*" ∨ c.name = name := by
  rw [answers, Bool.or_eq_true, beq_iff_eq, beq_iff_eq]

/-! ## The walk in the order of the document -/

/-- The first step down is to the children with the first name. -/
theorem descend_cons (name : String) (names : List String) (e : Element) :
    descend (name :: names) [e]
      = (e.children.filter (answers name)).flatMap fun c => descend names [c] := by
  rw [← descend_flatMap names _ ([·]), List.flatMap_singleton']
  show descend names (stepDown name [e]) = _
  rw [stepDown, List.flatMap_singleton]

/-- Where the names lead, taken in the order of the indexes, is where the walk
    over the levels comes to. -/
theorem map_snd_places (names : List String) (e : Element) :
    (places names e).map Prod.snd = descend names [e] := by
  induction names generalizing e with
  | nil => rfl
  | cons name names ih =>
      rw [places, descend_cons]
      -- the indexes run on from child to child
      generalize e.children = cs, 0 = k
      induction cs generalizing k with
      | nil => rfl
      | cons c cs ihChildren =>
          rw [List.zipIdx_cons, List.flatMap_cons, List.map_append, ihChildren, List.filter_cons]
          dsimp only
          split
          · rw [List.map_map, List.flatMap_cons, ← ih c]
            rfl
          · rfl

/-- The places are the ends of the chains, each with its position. -/
theorem mem_places_iff {names : List String} :
    (position, x) ∈ places names e ↔ Chain e names position x := by
  induction names generalizing e position with
  | nil =>
      rw [places, List.mem_singleton]
      constructor
      · rintro h
        obtain ⟨rfl, rfl⟩ := Prod.mk.inj h
        exact .nil x
      · rintro ⟨⟩
        rfl
  | cons name names ih =>
      rw [places, List.mem_flatMap]
      constructor
      -- a place is one step down, to a child that answers, and a place below it
      · rintro ⟨⟨c, i⟩, hc, hx⟩
        have hchild := List.mem_zipIdx_iff_getElem?.mp hc
        dsimp only at hx
        split at hx
        · next ha =>
            obtain ⟨⟨position', x'⟩, hmem, heq⟩ := List.mem_map.mp hx
            obtain ⟨rfl, rfl⟩ := Prod.mk.inj heq
            exact .step hchild (answers_iff_any.mp ha) (ih.mp hmem)
        · exact nomatch hx
      · intro h
        cases h with
        | @step _ c _ i _ _ position hchild ha hrest =>
            refine ⟨(c, i), List.mem_zipIdx_iff_getElem?.mpr hchild, ?_⟩
            dsimp only
            rw [if_pos (answers_iff_any.mpr ha)]
            exact List.mem_map.mpr ⟨(position, x), ih.mpr hrest, rfl⟩

theorem pairwise_zipIdx (cs : List Element) (k : Nat) :
    (cs.zipIdx k).Pairwise fun a b => a.2 < b.2 := by
  induction cs generalizing k with
  | nil => exact .nil
  | cons c cs ih =>
      rw [List.zipIdx_cons, List.pairwise_cons]
      exact ⟨fun _ hb => List.le_snd_of_mem_zipIdx hb, ih (k + 1)⟩

/-- What stands below a child has the index of the child in front. -/
theorem exists_cons_of_mem_below {names : List String} {i : Nat} {a : List Nat × Element}
    (h : a ∈ if c.answers name then (places names c).map fun (position, x) => (i :: position, x)
      else []) : ∃ position, a.1 = i :: position := by
  split at h
  · obtain ⟨⟨position, x⟩, -, rfl⟩ := List.mem_map.mp h
    exact ⟨position, rfl⟩
  · exact nomatch h

/-- The indexes of the places ascend, those of the upper steps first. -/
theorem pairwise_places (names : List String) (e : Element) :
    (places names e).Pairwise fun a b => a.1 < b.1 := by
  induction names generalizing e with
  | nil => exact List.pairwise_singleton ..
  | cons name names ih =>
      rw [places, List.pairwise_flatMap]
      constructor
      · rintro ⟨c, i⟩ -
        dsimp only
        split
        · rw [List.pairwise_map]
          exact (ih c).imp fun h => List.cons_lt_cons_iff.mpr (Or.inr ⟨rfl, h⟩)
        · exact .nil
      · refine (pairwise_zipIdx e.children 0).imp ?_
        intro child child' hlt a ha b hb
        obtain ⟨position, ha⟩ := exists_cons_of_mem_below ha
        obtain ⟨position', hb⟩ := exists_cons_of_mem_below hb
        rw [ha, hb]
        exact List.cons_lt_cons_iff.mpr (Or.inl hlt)

/-- A path leads to the ends of its chains, in the order of the document. -/
theorem exists_select_eq (e : Element) (path : String) :
    ∃ found : List (List Nat × Element),
      e.select path = found.map Prod.snd ∧ found.Pairwise (fun a b => a.1 < b.1) ∧
      ∀ position x, (position, x) ∈ found ↔ Chain e (names path) position x := by
  refine ⟨places (names path) e, ?_, pairwise_places _ e, fun _ _ => mem_places_iff⟩
  rw [map_snd_places, select, segments_eq_names]

/-! ## Paths from above the root -/

/-- A name in front of a path is its first segment. -/
theorem segments_cons {name rest : List Char} (hname : name ≠ []) (hslash : '/' ∉ name)
    (hrest : ∀ c ∈ rest.head?, c = '/') :
    segments (String.ofList (name ++ rest))
      = String.ofList name :: segments (String.ofList rest) := by
  have hone : segments (String.ofList name) = [String.ofList name] := by
    have hpieces : Text.pieces (· == '/') name = [name] :=
      Text.pieces_of_forall_not fun c hc => beq_false_of_ne fun he => hslash (he ▸ hc)
    simp [segments, Text.piecesOf, hpieces, hname]
  cases rest with
  | nil => rw [List.append_nil, hone]; rfl
  | cons c rest =>
      obtain rfl := hrest c rfl
      have hjoin : String.ofList (name ++ '/' :: rest)
          = String.ofList name ++ "/" ++ String.ofList rest := by
        apply String.toList_injective
        simp
      have hslash : String.ofList ('/' :: rest) = "/" ++ String.ofList rest := by
        apply String.toList_injective
        simp
      rw [hjoin, segments_join, hone, hslash, segments_slash]
      rfl

end Element

/-- A path from above the root leads to what it leads to from an element that
    has the root as its only child. -/
theorem Document.select_slash {d : Document} {above : Element} (habove : above.children = [d.root])
    {path : String} (hne : path ≠ "") (hslash : path.toList.head? ≠ some '/') :
    d.select ("/" ++ path) = above.select path := by
  have hchars : ("/" ++ path).toList = '/' :: path.toList := by simp
  rw [d.select_of_slash hchars]
  -- the path is cut where its first segment ends
  generalize hfirst : path.toList.takeWhile (· != '/') = first
  generalize hrest : path.toList.dropWhile (· != '/') = rest
  have hsplit : path = String.ofList (first ++ rest) := by
    rw [← hfirst, ← hrest, List.takeWhile_append_dropWhile, String.ofList_toList]
  have hsegments : Element.segments path
      = String.ofList first :: Element.segments (String.ofList rest) := by
    rw [hsplit]
    refine Element.segments_cons ?_ ?_ ?_
    · cases hcs : path.toList with
      | nil => exact absurd (String.toList_eq_nil_iff.mp hcs) hne
      | cons c cs =>
          have hc : c ≠ '/' := fun he => hslash (by rw [hcs, he]; rfl)
          simp [← hfirst, hcs, hc]
    · intro hmem
      rw [← hfirst] at hmem
      exact absurd (List.all_eq_true.mp List.all_takeWhile _ hmem) (by decide)
    · intro c hc
      have hstop := List.head?_dropWhile_not (· != '/') path.toList
      rw [hrest, hc] at hstop
      simpa using hstop
  -- both sides ask the root for the first segment and go on below it
  rw [Element.select, Element.select, hsegments, Element.descend_cons, habove, List.filter_cons]
  split
  · rw [List.filter_nil, List.flatMap_singleton]
  · rfl

/-- **Paths stand for chains of child steps.**  A path leads to the elements at
    the ends of its chains: each place comes once, in the order of the
    document, which is that of the indexes on the way.  So a path may be
    followed in stages, and one that is anchored above the root of a document
    is followed from an element above the root, be there separators at its end
    or doubled ones inside. -/
theorem select_chains :
    (∀ (e : Element) (path : String), ∃ found : List (List Nat × Element),
      e.select path = found.map Prod.snd ∧ found.Pairwise (fun a b => a.1 < b.1) ∧
      ∀ position x, (position, x) ∈ found ↔ Element.Chain e (Element.names path) position x) ∧
    (∀ (e : Element) (p q : String),
      e.select (p ++ "/" ++ q) = (e.select p).flatMap (·.select q)) ∧
    (∀ (d : Document) (above : Element) (path : String), above.children = [d.root] →
      path ≠ "" → path.toList.head? ≠ some '/' →
      d.select ("/" ++ path) = above.select path) :=
  ⟨Element.exists_select_eq, Element.select_join,
    fun _ _ _ habove hne hslash => Document.select_slash habove hne hslash⟩

/-- Two lists of files, with an element of another name between them. -/
def twoLists : Document where
  root := { name := "config", children := [
    { name := "files", children := [{ name := "file", text := "a" }] },
    { name := "other", children := [{ name := "file", text := "b" }] },
    { name := "files", children := [{ name := "file", text := "c" }, { name := "folder" }] }] }

/-- From above the root, with separators doubled and at the end. -/
theorem select_chains_twoLists :
    twoLists.select "/config//files/*/"
      = [{ name := "file", text := "a" }, { name := "file", text := "c" }, { name := "folder" }] ∧
    twoLists.select "/config//files/*/"
      = Element.select { name := "", children := [twoLists.root] } "config//files/*/" := by
  obtain ⟨-, -, habove⟩ := select_chains
  exact ⟨by decide, habove twoLists _ "config//files/*/" rfl (by decide) (by decide)⟩

end ModInstall.Markup
