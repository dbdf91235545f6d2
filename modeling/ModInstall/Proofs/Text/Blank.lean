import Mathlib.Data.List.TakeWhile
import ModInstall.Text.Blank

/-! # Blanks around a text

    Trimming takes the blank characters off both ends of a text.  What is left
    stands in the text with nothing but blanks around it (`exists_blanks`), and
    a text without blanks is what is left of it however many are put around it
    (`trim_of_blanks`).  So theorems may speak of a text between blanks and
    leave trimming out. -/

namespace ModInstall.Text

variable {cs before after : List Char}

/-- No digit is blank. -/
theorem isBlank_of_isDigit {c : Char} (h : c.isDigit = true) : isBlank c = false := by
  have hrange : 48 ≤ c.toNat ∧ c.toNat ≤ 57 := by
    simpa [Char.isDigit, UInt32.le_iff_toNat_le] using h
  simp only [isBlank, blankRanges, List.any_cons, List.any_nil, Bool.or_false, Bool.or_eq_false_iff,
    Bool.and_eq_false_iff, decide_eq_false_iff_not]
  omega

/-- Blanks in front of a text without blanks are all that is dropped. -/
theorem dropWhile_isBlank (hbefore : ∀ c ∈ before, isBlank c = true)
    (h : ∀ c ∈ cs, isBlank c = false) : (before ++ cs).dropWhile isBlank = cs := by
  rw [List.dropWhile_append_of_pos hbefore]
  cases cs with
  | nil => rfl
  | cons c cs => exact List.dropWhile_cons_of_neg (by simp [h c (List.mem_cons_self ..)])

/-- A text without blanks is what is left when those around it are taken off. -/
theorem trim_of_blanks (hblank : ∀ c ∈ before ++ after, isBlank c = true)
    (h : ∀ c ∈ cs, isBlank c = false) : trim (before ++ cs ++ after) = cs := by
  obtain ⟨hbefore, hafter⟩ := List.forall_mem_append.mp hblank
  -- where nothing is left in between, the blanks in front are dropped with those behind
  cases cs with
  | nil =>
      have hnone : (before ++ [] ++ after).dropWhile isBlank = [] := by
        rw [List.append_nil]
        exact List.dropWhile_eq_nil_iff.mpr hblank
      rw [trim, hnone]
      rfl
  | cons c cs =>
      have hfront : (before ++ (c :: cs) ++ after).dropWhile isBlank = c :: cs ++ after := by
        rw [List.append_assoc, List.dropWhile_append_of_pos hbefore]
        exact List.dropWhile_cons_of_neg (by simp [h c (List.mem_cons_self ..)])
      have hback : (after.reverse ++ (c :: cs).reverse).dropWhile isBlank = (c :: cs).reverse :=
        dropWhile_isBlank (fun d hd => hafter d (List.mem_reverse.mp hd))
          fun d hd => h d (List.mem_reverse.mp hd)
      rw [trim, hfront, List.reverse_append, hback, List.reverse_reverse]

/-- A text without blanks is left as it is. -/
theorem trim_eq_self (h : ∀ c ∈ cs, isBlank c = false) : trim cs = cs := by
  have hnone : trim ([] ++ cs ++ []) = cs := trim_of_blanks (List.forall_mem_nil _) h
  rwa [List.nil_append, List.append_nil] at hnone

/-- Trimming takes off nothing but blanks. -/
theorem exists_blanks (cs : List Char) :
    ∃ before after, cs = before ++ trim cs ++ after ∧ ∀ c ∈ before ++ after, isBlank c = true := by
  have hblank : ∀ ds : List Char, ∀ c ∈ ds.takeWhile isBlank, isBlank c = true :=
    fun _ _ hc => List.mem_takeWhile_imp hc
  refine ⟨cs.takeWhile isBlank, ((cs.dropWhile isBlank).reverse.takeWhile isBlank).reverse, ?_, ?_⟩
  -- the front is taken off first, and the back off what is left
  · have hback : cs.dropWhile isBlank
        = trim cs ++ ((cs.dropWhile isBlank).reverse.takeWhile isBlank).reverse := by
      rw [trim, ← List.reverse_append, List.takeWhile_append_dropWhile, List.reverse_reverse]
    rw [List.append_assoc, ← hback, List.takeWhile_append_dropWhile]
  · refine List.forall_mem_append.mpr ⟨hblank cs, fun c hc => ?_⟩
    exact hblank _ c (List.mem_reverse.mp hc)

end ModInstall.Text
