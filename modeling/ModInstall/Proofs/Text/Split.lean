import ModInstall.Text.Split

/-! # Cutting a text into pieces

    No piece contains a separator, so a text is cut at a separator into the
    pieces before it and the pieces behind it, and a text without separators
    is one piece.  The last piece is what stands behind the last separator.
    Characters may be changed before the cutting as long as separators stay
    separators and the others stay as they are. -/

namespace ModInstall.Text

variable {sep : Char → Bool}

/-- The first character of a text that is no separator goes to its first
    piece. -/
theorem pieces_cons_of_not {c : Char} (hc : sep c = false) (cs : List Char) :
    pieces sep (c :: cs) = consHead c (pieces sep cs) :=
  if_neg (by rw [hc]; exact Bool.false_ne_true)

/-- Cutting a text into pieces is the library's splitting. -/
theorem pieces_eq_splitOnP (sep : Char → Bool) (cs : List Char) :
    pieces sep cs = cs.splitOnP sep := by
  induction cs with
  | nil => simp [pieces]
  | cons c cs ih =>
      rw [pieces, List.splitOnP_cons_eq_if_modifyHead, ih]
      cases hp : cs.splitOnP sep with
      | nil => exact absurd hp (List.splitOnP_ne_nil sep cs)
      | cons w ws => rfl

/-- Cutting at a separator cuts what stands before it and what stands behind
    it, each for itself. -/
theorem pieces_append {c : Char} (hc : sep c = true) (xs ys : List Char) :
    pieces sep (xs ++ c :: ys) = pieces sep xs ++ pieces sep ys := by
  simp only [pieces_eq_splitOnP]
  exact List.splitOnP_append_cons xs ys hc

/-- A text without separators is one piece. -/
theorem pieces_of_forall_not {cs : List Char} (h : ∀ c ∈ cs, sep c = false) :
    pieces sep cs = [cs] := by
  rw [pieces_eq_splitOnP]
  exact List.splitOnP_eq_singleton h

/-- No separator is left in a piece. -/
theorem not_sep_of_mem_pieces {cs w : List Char} (hw : w ∈ pieces sep cs) :
    ∀ c ∈ w, sep c = false := by
  induction cs generalizing w with
  | nil =>
      obtain rfl := List.mem_singleton.mp hw
      exact fun c hc => nomatch hc
  | cons d cs ih =>
      by_cases hd : sep d = true
      · rw [pieces, if_pos hd] at hw
        rcases List.mem_cons.mp hw with rfl | hw
        · exact fun c hc => nomatch hc
        · exact ih hw
      · have hd' : sep d = false := Bool.not_eq_true _ ▸ hd
        rw [pieces_cons_of_not hd'] at hw
        cases hp : pieces sep cs with
        | nil => exact absurd hp (pieces_ne_nil sep cs)
        | cons v vs =>
            rw [hp] at hw ih
            rcases List.mem_cons.mp hw with rfl | hw
            · exact List.forall_mem_cons.mpr ⟨hd', ih (List.mem_cons_self ..)⟩
            · exact ih (List.mem_cons_of_mem _ hw)

/-- What stands behind the last separator of a text is its last piece. -/
theorem getLast?_pieces_append {dir w : List Char} (hw : ∀ c ∈ w, sep c = false)
    (hdir : ∀ c ∈ dir.getLast?, sep c = true) : (pieces sep (dir ++ w)).getLast? = some w := by
  cases hlast : dir.getLast? with
  | none =>
      rw [List.getLast?_eq_none_iff.mp hlast, List.nil_append, pieces_of_forall_not hw]
      rfl
  | some c =>
      obtain ⟨front, rfl⟩ := List.getLast?_eq_some_iff.mp hlast
      rw [List.append_assoc, List.singleton_append, pieces_append (hdir c hlast),
        pieces_of_forall_not hw, List.getLast?_concat]

/-- Every text has a part behind its last separator. -/
theorem exists_behind (sep : Char → Bool) (cs : List Char) :
    ∃ dir w, cs = dir ++ w ∧ (∀ c ∈ w, sep c = false) ∧ ∀ c ∈ dir.getLast?, sep c = true := by
  induction cs with
  | nil => exact ⟨[], [], rfl, by simp, by simp⟩
  | cons c cs ih =>
      obtain ⟨dir, w, rfl, hw, hdir⟩ := ih
      cases dir with
      | cons d dir => exact ⟨c :: d :: dir, w, rfl, hw, by rwa [List.getLast?_cons_cons]⟩
      | nil =>
          -- there is no separator further behind, so the first character decides
          cases hc : sep c with
          | false => exact ⟨[], c :: w, rfl, List.forall_mem_cons.mpr ⟨hc, hw⟩, hdir⟩
          | true =>
              refine ⟨[c], w, rfl, hw, fun d hd => ?_⟩
              obtain rfl := Option.some.inj hd
              exact hc

/-- The last piece is the text behind the last separator, or all of it where
    there is none. -/
theorem getLast?_pieces_eq_some_iff {cs w : List Char} :
    (pieces sep cs).getLast? = some w ↔
      (∀ c ∈ w, sep c = false) ∧ ∃ dir, cs = dir ++ w ∧ ∀ c ∈ dir.getLast?, sep c = true := by
  constructor
  · intro h
    obtain ⟨dir, w', rfl, hw, hdir⟩ := exists_behind sep cs
    obtain rfl := Option.some.inj ((getLast?_pieces_append hw hdir).symm.trans h)
    exact ⟨hw, dir, rfl, hdir⟩
  · rintro ⟨hw, dir, rfl, hdir⟩
    exact getLast?_pieces_append hw hdir

/-- Changing separators into other separators changes no piece. -/
theorem pieces_map {sep' : Char → Bool} {f : Char → Char} (hsep : ∀ c, sep' (f c) = sep c)
    (hself : ∀ c, sep c = false → f c = c) (cs : List Char) :
    pieces sep' (cs.map f) = pieces sep cs := by
  induction cs with
  | nil => rfl
  | cons c cs ih =>
      rw [List.map_cons, pieces, pieces, ih, hsep]
      by_cases hc : sep c = true
      · rw [if_pos hc, if_pos hc]
      · rw [if_neg hc, if_neg hc, hself c (Bool.not_eq_true _ ▸ hc)]

end ModInstall.Text
