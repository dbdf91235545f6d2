import ModInstall.Text.Lowercase

/-! # Lower case is final

    Nothing that the mapping to lower case writes is changed by it again, so
    names that have been put in lower case once stay as they are.  For single
    characters this is a fact about the table: what a run writes (`image`) is
    covered by no run, is neither of the two characters with a mapping of
    their own, and is a character.  The table is checked for that run by run,
    and the rest follows by going through a text. -/

namespace ModInstall.Text

/-! ## Single characters -/

namespace CaseRun

/-- The code points that a run writes.  A run of one code point takes up every
    second one as well as every one. -/
def image (r : CaseRun) : CaseRun where
  first  := (r.first + r.shift).toNat
  last   := (r.last + r.shift).toNat
  stride := if r.first = r.last then 2 else r.stride
  shift  := 0

/-- Whether a run meets none of some sorted runs: they lie behind it or before
    it, or are interleaved with it, one on the even code points and one on the
    odd. -/
def isApart (r : CaseRun) : List CaseRun → Bool
  | [] => true
  | r' :: rs =>
      r.last < r'.first ||
        ((r'.last < r.first ||
            r'.stride == 2 && r.stride == 2 && r.first % 2 != r'.first % 2) && isApart r rs)

/-- Whether a run writes characters only, none of them `İ` and none that
    another run covers. -/
def isFinal (r : CaseRun) : Bool :=
  0 ≤ r.first + r.shift &&
    (r.image.last < 0x130 || 0x130 < r.image.first) &&
    (r.image.last < 0xD800 || 0xDFFF < r.image.first && r.image.last < 0x110000) &&
    r.image.isApart CaseTable.runs

end CaseRun

/-- The table, checked run by run. -/
theorem CaseTable.all_isFinal : runs.all CaseRun.isFinal = true := by
  decide +kernel

/-- What a run makes of the code points that it covers is what `image`
    covers. -/
theorem CaseRun.covers_image {r : CaseRun} (hpos : 0 ≤ r.first + r.shift) {n : Nat}
    (h : r.covers n = true) : r.image.covers (n + r.shift).toNat = true := by
  simp only [covers, Bool.and_eq_true, decide_eq_true_eq, beq_iff_eq] at h ⊢
  obtain ⟨⟨hfirst, hlast⟩, hstride⟩ := h
  refine ⟨⟨Int.toNat_le_toNat (by omega), Int.toNat_le_toNat (by omega)⟩, ?_⟩
  show ((n + r.shift).toNat - (r.first + r.shift).toNat) % (if r.first = r.last then 2 else _) = 0
  rw [show (n + r.shift).toNat - (r.first + r.shift).toNat = n - r.first by omega]
  split
  · rw [show n - r.first = 0 by omega]
  · exact hstride

/-- A code point that no run covers is its own lower case. -/
theorem lowerCode_of_isApart {r : CaseRun} {rs : List CaseRun} (h : r.isApart rs = true)
    {n : Nat} (hn : r.covers n = true) : lowerCode n rs = n := by
  simp only [CaseRun.covers, Bool.and_eq_true, decide_eq_true_eq, beq_iff_eq] at hn
  obtain ⟨⟨hfirst, hlast⟩, hstride⟩ := hn
  induction rs with
  | nil => rfl
  | cons r' rs ih =>
      simp only [CaseRun.isApart, Bool.or_eq_true, Bool.and_eq_true, decide_eq_true_eq, beq_iff_eq,
        bne_iff_ne] at h
      rw [lowerCode]
      by_cases hlt : n < r'.first
      · exact if_pos hlt
      · rcases h with h | ⟨hoff, hrest⟩
        · omega
        · -- runs that are interleaved differ in parity
          have hnot : r'.covers n = false := by
            rw [← Bool.not_eq_true]
            intro hc
            simp only [CaseRun.covers, Bool.and_eq_true, decide_eq_true_eq, beq_iff_eq] at hc
            obtain ⟨⟨-, hlast'⟩, hstride'⟩ := hc
            rcases hoff with hoff | ⟨⟨htwo', htwo⟩, hparity⟩
            · omega
            · rw [htwo] at hstride
              rw [htwo'] at hstride'
              omega
          rw [if_neg hlt, hnot]
          exact ih hrest

/-- Lower case is either the code point itself or where a run moves it. -/
theorem lowerCode_cases (n : Nat) (rs : List CaseRun) :
    lowerCode n rs = n ∨
      ∃ r ∈ rs, r.covers n = true ∧ lowerCode n rs = (n + r.shift).toNat := by
  induction rs with
  | nil => exact Or.inl rfl
  | cons r rs ih =>
      rw [lowerCode]
      by_cases hlt : n < r.first
      · exact Or.inl (if_pos hlt)
      · rw [if_neg hlt]
        by_cases hc : r.covers n = true
        · exact Or.inr ⟨r, List.mem_cons_self .., hc, if_pos hc⟩
        · rw [if_neg hc]
          rcases ih with h | ⟨r', hr', h⟩
          · exact Or.inl h
          · exact Or.inr ⟨r', List.mem_cons_of_mem _ hr', h⟩

/-- A character that lower-casing does not touch, wherever it stands. -/
def Settled (c : Char) : Prop :=
  lowerChar c = c ∧ c ≠ 'Σ' ∧ c ≠ 'İ'

/-- The lower case of a character with an ordinary mapping is settled. -/
theorem settled_lowerChar {c : Char} (hsigma : c ≠ 'Σ') (hi : c ≠ 'İ') :
    Settled (lowerChar c) := by
  rcases lowerCode_cases c.toNat CaseTable.runs with h | ⟨r, hr, hc, h⟩
  · -- no run moves the character
    have hself : lowerChar c = c := by rw [lowerChar, h, Char.ofNat_toNat]
    rw [hself]
    exact ⟨hself, hsigma, hi⟩
  · -- a run moves the character into its image, which is final
    have hfinal := List.all_eq_true.mp CaseTable.all_isFinal r hr
    simp only [CaseRun.isFinal, Bool.and_eq_true, Bool.or_eq_true, decide_eq_true_eq] at hfinal
    obtain ⟨⟨⟨hpos, hdotted⟩, hchar⟩, hapart⟩ := hfinal
    have himage := CaseRun.covers_image hpos hc
    rw [← h] at himage
    have hfixed := lowerCode_of_isApart hapart himage
    simp only [CaseRun.covers, Bool.and_eq_true, decide_eq_true_eq] at himage
    have hvalid : (lowerCode c.toNat CaseTable.runs).isValidChar := by
      show _ < 0xD800 ∨ 0xDFFF < _ ∧ _ < 0x110000
      omega
    have htoNat : (lowerChar c).toNat = lowerCode c.toNat CaseTable.runs := by
      rw [lowerChar, Char.ofNat, dif_pos hvalid]
      rfl
    refine ⟨?_, ?_, ?_⟩
    · rw [lowerChar, htoNat, hfixed, ← htoNat, Char.ofNat_toNat]
    · -- a capital sigma is moved by the table, so it is not what a run writes
      intro hs
      rw [← htoNat, hs] at hfixed
      exact absurd hfixed (by decide +kernel)
    · intro hs
      rw [← htoNat, hs] at himage
      have : 'İ'.toNat = 0x130 := rfl
      omega

/-! ## Texts -/

/-- The characters that the mappings of `Σ` and `İ` write are settled. -/
theorem settled_special : Settled 'ς' ∧ Settled 'σ' ∧ Settled 'i' ∧ Settled '\u0307' := by
  refine ⟨⟨?_, by decide, by decide⟩, ⟨?_, by decide, by decide⟩, ⟨?_, by decide, by decide⟩,
    ⟨?_, by decide, by decide⟩⟩
  all_goals decide +kernel

/-- Whatever stands around a character, what it is mapped to is settled. -/
theorem settled_of_mem_lowerAt {before after : List Char} {c x : Char}
    (h : x ∈ lowerAt before c after) : Settled x := by
  obtain ⟨hfinal, hmedial, hletter, hdot⟩ := settled_special
  rw [lowerAt] at h
  by_cases hsigma : c = 'Σ'
  · rw [if_pos hsigma] at h
    split at h
    · rw [List.mem_singleton.mp h]
      exact hfinal
    · rw [List.mem_singleton.mp h]
      exact hmedial
  · rw [if_neg hsigma] at h
    by_cases hi : c = 'İ'
    · rw [if_pos hi] at h
      rcases List.mem_cons.mp h with rfl | h
      · exact hletter
      · rw [List.mem_singleton.mp h]
        exact hdot
    · rw [if_neg hi, List.mem_singleton] at h
      rw [h]
      exact settled_lowerChar hsigma hi

/-- Lower case consists of settled characters. -/
theorem settled_of_mem_lowerAfter {before cs : List Char} {x : Char}
    (h : x ∈ lowerAfter before cs) : Settled x := by
  induction cs generalizing before with
  | nil => exact nomatch h
  | cons c cs ih =>
      rw [lowerAfter] at h
      rcases List.mem_append.mp h with h | h
      · exact settled_of_mem_lowerAt h
      · exact ih h

/-- Settled characters are their own lower case, whatever stands in front. -/
theorem lowerAfter_eq_self {before cs : List Char} (h : ∀ x ∈ cs, Settled x) :
    lowerAfter before cs = cs := by
  induction cs generalizing before with
  | nil => rfl
  | cons c cs ih =>
      obtain ⟨hself, hsigma, hi⟩ := h c (List.mem_cons_self ..)
      rw [lowerAfter, lowerAt, if_neg hsigma, if_neg hi, hself,
        ih fun x hx => h x (List.mem_cons_of_mem _ hx)]
      rfl

/-- **Lower case is final**: what has been put in lower case stays as it is. -/
theorem lowercase_lowercase (s : String) : lowercase (lowercase s) = lowercase s := by
  show String.ofList (lowerAfter [] (String.ofList (lowerAfter [] s.toList)).toList) = _
  rw [String.toList_ofList, lowerAfter_eq_self fun x hx => settled_of_mem_lowerAfter hx]
  rfl

end ModInstall.Text
