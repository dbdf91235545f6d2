import Mathlib.Data.List.DropRight
import Mathlib.Data.List.GetD
import Mathlib.Order.PiLex
import ModInstall.Version

/-! # The order of versions

    Two versions are compared component by component, and where one of them
    runs out it goes on with zeros.  So a version stands for an endless
    sequence, its components and then zeros (`padded`), and the comparison is
    the lexicographic order of these sequences (`compare_eq_compare_padded`).
    That order is a linear one, and what is known of it holds of versions.

    Versions that compare as equal need not be written alike.  What they share
    is what is left when the zeros at the end are taken away (`significant`):
    it is the shortest way to write the sequence that a version stands for. -/

namespace ModInstall.Version

/-- The components with zeros behind them, without end. -/
def pad (cs : List UInt32) : Lex (ℕ → ℕ) :=
  toLex fun i => (cs.getD i 0).toNat

/-- A version with zeros behind its components, without end. -/
def padded (v : Version) : Lex (ℕ → ℕ) :=
  pad v.components

/-- What comes behind the first number of a sequence. -/
def rest (f : Lex (ℕ → ℕ)) : Lex (ℕ → ℕ) :=
  toLex fun i => ofLex f (i + 1)

/-! ## Sequences without end -/

variable {f g : Lex (ℕ → ℕ)}

/-- Where the first numbers differ, they decide. -/
theorem lt_of_head_lt (h : ofLex f 0 < ofLex g 0) : f < g :=
  ⟨0, fun j hj => absurd hj (Nat.not_lt_zero j), h⟩

/-- Behind equal first numbers the rest decides. -/
theorem lt_of_rest_lt (h : ofLex f 0 = ofLex g 0) (hrest : rest f < rest g) : f < g := by
  obtain ⟨i, hbefore, hi⟩ := hrest
  refine ⟨i + 1, fun j hj => ?_, hi⟩
  cases j with
  | zero => exact h
  | succ j => exact hbefore j (Nat.lt_of_succ_lt_succ hj)

/-- Sequences are the same when their first numbers and their rests are. -/
theorem eq_of_rest_eq (h : ofLex f 0 = ofLex g 0) (hrest : rest f = rest g) : f = g := by
  funext i
  cases i with
  | zero => exact h
  | succ i => exact congrFun hrest i

/-- Sequences are compared by their first numbers and then by the rest. -/
theorem compare_eq_then (f g : Lex (ℕ → ℕ)) :
    Ord.compare f g
      = (Ord.compare (ofLex f 0) (ofLex g 0)).then (Ord.compare (rest f) (rest g)) := by
  rcases lt_trichotomy (ofLex f 0) (ofLex g 0) with h | h | h
  · rw [compare_lt_iff_lt.mpr h, compare_lt_iff_lt.mpr (lt_of_head_lt h)]
    rfl
  · rw [compare_eq_iff_eq.mpr h, Ordering.eq_then]
    rcases lt_trichotomy (rest f) (rest g) with hrest | hrest | hrest
    · rw [compare_lt_iff_lt.mpr hrest, compare_lt_iff_lt.mpr (lt_of_rest_lt h hrest)]
    · rw [compare_eq_iff_eq.mpr hrest, compare_eq_iff_eq.mpr (eq_of_rest_eq h hrest)]
    · rw [compare_gt_iff_gt.mpr hrest, compare_gt_iff_gt.mpr (lt_of_rest_lt h.symm hrest)]
  · rw [compare_gt_iff_gt.mpr h, compare_gt_iff_gt.mpr (lt_of_head_lt h)]
    rfl

/-! ## Versions -/

theorem pad_zero (cs : List UInt32) : ofLex (pad cs) 0 = (cs.headD 0).toNat := by
  cases cs <;> rfl

theorem rest_pad (cs : List UInt32) : rest (pad cs) = pad cs.tail := by
  cases cs <;> rfl

/-- Components are compared by their heads and then by their tails, whichever
    list runs out first. -/
theorem compareComponents_eq_then (as bs : List UInt32) :
    compareComponents as bs
      = (Ord.compare (as.headD 0) (bs.headD 0)).then (compareComponents as.tail bs.tail) := by
  cases as with
  | cons a as => rfl
  | nil =>
      cases bs with
      | nil => rfl
      | cons b bs =>
          show (if (b :: bs).all (· == 0) then Ordering.eq else .lt)
            = (Ord.compare 0 b).then (if bs.all (· == 0) then .eq else .lt)
          by_cases hb : b = 0
          · subst hb
            rfl
          · have hpos : Ord.compare 0 b = .lt := by
              rw [UInt32.compare_eq_toNat_compare_toNat, compare_lt_iff_lt]
              exact Nat.pos_of_ne_zero fun h => hb (UInt32.toNat_inj.mp h)
            rw [hpos]
            simp [hb]

/-- Components are compared as if zeros without end stood behind them. -/
theorem compareComponents_eq_compare_pad (as bs : List UInt32) :
    compareComponents as bs = Ord.compare (pad as) (pad bs) := by
  have hstep : ∀ {as bs : List UInt32},
      compareComponents as.tail bs.tail = Ord.compare (pad as.tail) (pad bs.tail) →
        compareComponents as bs = Ord.compare (pad as) (pad bs) := by
    intro as bs h
    rw [compareComponents_eq_then, compare_eq_then, h, pad_zero, pad_zero, rest_pad, rest_pad,
      UInt32.compare_eq_toNat_compare_toNat]
  induction as generalizing bs with
  | cons a as ih => exact hstep (ih bs.tail)
  | nil =>
      -- only the second list is left to walk along
      induction bs with
      | nil => exact (compare_eq_iff_eq.mpr rfl).symm
      | cons b bs ih => exact hstep ih

variable {a b c : Version}

/-- **The order of versions** is the lexicographic one, missing components
    counting as zero. -/
theorem compare_eq_compare_padded (a b : Version) :
    compare a b = Ord.compare a.padded b.padded :=
  compareComponents_eq_compare_pad a.components b.components

/-- A version is at least another when its sequence is. -/
theorem atLeast_iff : a.atLeast b = true ↔ b.padded ≤ a.padded := by
  rw [atLeast, compare_eq_compare_padded, Ordering.isGE_iff_ne_lt]
  exact compare_ge_iff_ge

/-- What is at least a version is at least all that this one reaches. -/
theorem atLeast_trans (hab : a.atLeast b = true) (hbc : b.atLeast c = true) :
    a.atLeast c = true :=
  atLeast_iff.mpr ((atLeast_iff.mp hbc).trans (atLeast_iff.mp hab))

/-! ## Versions that are the same -/

/-- The comparison of versions is that of linearly ordered sequences, so all
    laws of comparisons hold of it. -/
instance : Std.TransCmp compare := by
  have heq : compare = compareOn padded := by
    funext a b
    exact compare_eq_compare_padded a b
  rw [heq]
  infer_instance

theorem same_iff_compare_eq : a.same b = true ↔ compare a b = .eq :=
  beq_iff_eq

/-- Versions are the same when they stand for one sequence. -/
theorem same_iff_padded_eq : a.same b = true ↔ a.padded = b.padded := by
  rw [same_iff_compare_eq, compare_eq_compare_padded]
  exact compare_eq_iff_eq

/-- A component of a version; one that is not written is zero. -/
def component (v : Version) (i : ℕ) : UInt32 :=
  v.components.getD i 0

theorem padded_apply (v : Version) (i : ℕ) : ofLex v.padded i = (v.component i).toNat :=
  rfl

theorem component_of_length_le {i : ℕ} (h : a.components.length ≤ i) : a.component i = 0 :=
  List.getD_eq_default _ _ h

/-- A version with zeros written behind its components. -/
def lengthened (v : Version) (n : ℕ) : Version :=
  ⟨v.components ++ List.replicate n 0⟩

/-- Zeros at the end are the zeros that are there without them. -/
theorem pad_append_zeros (cs : List UInt32) (n : ℕ) : pad (cs ++ List.replicate n 0) = pad cs := by
  funext i
  show ((cs ++ List.replicate n 0).getD i 0).toNat = (cs.getD i 0).toNat
  rcases Nat.lt_or_ge i cs.length with hi | hi
  · rw [List.getD_append _ _ _ _ hi]
  · rw [List.getD_append_right _ _ _ _ hi, List.getD_eq_default _ _ hi,
      List.getD_eq_getElem?_getD, List.getElem?_getD_replicate_default_eq]

/-- Zeros at the end do not change what a version stands for. -/
theorem padded_lengthened (v : Version) (n : ℕ) : (v.lengthened n).padded = v.padded :=
  pad_append_zeros v.components n

/-- The components of a version without the zeros at their end. -/
def significant (v : Version) : List UInt32 :=
  v.components.rdropWhile (· == 0)

/-- What is taken away at the end are zeros. -/
theorem pad_significant (v : Version) : pad v.significant = v.padded := by
  have hzeros : ∀ c ∈ v.components.rtakeWhile (· == 0), c = 0 := by
    intro c hc
    have hzero := List.mem_rtakeWhile_imp hc
    exact beq_iff_eq.mp hzero
  calc pad v.significant
    _ = pad (v.significant ++ List.replicate _ 0) := (pad_append_zeros v.significant _).symm
    _ = pad (v.significant ++ v.components.rtakeWhile (· == 0)) := by
        rw [← List.eq_replicate_of_mem hzeros]
    _ = v.padded := by
        rw [significant, List.rdropWhile_append_rtakeWhile]
        rfl

/-- Components that do not end in a zero are no more than any others with the
    same zeros behind them. -/
theorem length_le_of_pad_eq {as bs : List UInt32} (h : pad as = pad bs)
    (hlast : ∀ hne : as ≠ [], as.getLast hne ≠ 0) : as.length ≤ bs.length := by
  by_contra hlong
  have hne : as ≠ [] := by
    rintro rfl
    exact hlong (Nat.zero_le _)
  -- the last component of the longer list stands where the other one has run out
  have hat : (as.getD (as.length - 1) 0).toNat = (bs.getD (as.length - 1) 0).toNat :=
    congrFun h (as.length - 1)
  rw [List.getD_eq_default bs _ (by omega), List.getD_eq_getElem as _ (by omega),
    ← List.getLast_eq_getElem hne] at hat
  exact hlast hne (UInt32.toNat_inj.mp hat)

/-- **Versions are the same when they differ in zeros at their end only.** -/
theorem significant_eq_iff : a.significant = b.significant ↔ a.padded = b.padded := by
  have hlast : ∀ (v : Version) (hne : v.significant ≠ []), v.significant.getLast hne ≠ 0 := by
    intro v hne hzero
    exact List.rdropWhile_last_not _ _ hne (beq_iff_eq.mpr hzero)
  constructor
  · intro h
    rw [← pad_significant, h, pad_significant]
  · intro h
    have hpad : pad a.significant = pad b.significant := by
      rw [pad_significant, h, pad_significant]
    have hlength : a.significant.length = b.significant.length :=
      Nat.le_antisymm (length_le_of_pad_eq hpad (hlast a)) (length_le_of_pad_eq hpad.symm (hlast b))
    refine List.ext_getElem hlength fun i ha hb => UInt32.toNat_inj.mp ?_
    have hat : (a.significant.getD i 0).toNat = (b.significant.getD i 0).toNat := congrFun hpad i
    rwa [List.getD_eq_getElem _ _ ha, List.getD_eq_getElem _ _ hb] at hat

/-! ## The component that decides -/

/-- Versions agree up to a place and differ there. -/
structure DifferFirstAt (a b : Version) (i : ℕ) : Prop where
  before : ∀ j < i, a.component j = b.component j
  differ : a.component i ≠ b.component i

/-- Versions cannot differ where both have run out. -/
theorem DifferFirstAt.lt_length {i : ℕ} (h : DifferFirstAt a b i) :
    i < max a.components.length b.components.length := by
  by_contra hi
  refine h.differ ?_
  rw [component_of_length_le (by omega), component_of_length_le (by omega)]

/-- The first components that differ decide. -/
theorem DifferFirstAt.compare_eq {i : ℕ} (h : DifferFirstAt a b i) :
    compare a b = Ord.compare (a.component i) (b.component i) := by
  rw [compare_eq_compare_padded, UInt32.compare_eq_toNat_compare_toNat]
  have hbefore : ∀ j < i, ofLex a.padded j = ofLex b.padded j := by
    intro j hj
    rw [padded_apply, padded_apply, h.before j hj]
  rcases Nat.lt_trichotomy (a.component i).toNat (b.component i).toNat with hlt | heq | hgt
  · have hless : a.padded < b.padded := ⟨i, hbefore, hlt⟩
    rw [compare_lt_iff_lt.mpr hless, compare_lt_iff_lt.mpr hlt]
  · exact absurd (UInt32.toNat_inj.mp heq) h.differ
  · have hless : b.padded < a.padded := ⟨i, fun j hj => (hbefore j hj).symm, hgt⟩
    rw [compare_gt_iff_gt.mpr hless, compare_gt_iff_gt.mpr hgt]

/-- Versions that are not the same differ somewhere first. -/
theorem exists_differFirstAt (h : a.padded ≠ b.padded) : ∃ i, DifferFirstAt a b i := by
  rcases lt_or_gt_of_ne h with ⟨i, hbefore, hi⟩ | ⟨i, hbefore, hi⟩
  · exact ⟨i, fun j hj => UInt32.toNat_inj.mp (hbefore j hj),
      fun heq => absurd (congrArg UInt32.toNat heq) (Nat.ne_of_lt hi)⟩
  · exact ⟨i, fun j hj => UInt32.toNat_inj.mp (hbefore j hj).symm,
      fun heq => absurd (congrArg UInt32.toNat heq) (Nat.ne_of_gt hi)⟩

/-- **Versions are totally ordered up to zeros at their end**, whatever their
    lengths.  Comparing them the other way round gives the reverse, and the
    order is transitive.  They compare as equal exactly when they are the same,
    that is when nothing but zeros at the end tells them apart; such zeros
    change no comparison, and neither does a version in place of one that is
    the same.  Versions that are not the same are compared by the first
    component in which they differ, the shorter one going on with zeros. -/
theorem ordered_up_to_zeros (a b c : Version) :
    (compare b a = (compare a b).swap) ∧
    ((compare a b).isLE → (compare b c).isLE → (compare a c).isLE) ∧
    (compare a b = .eq ↔ a.same b = true) ∧
    (a.same b = true ↔ a.significant = b.significant) ∧
    (∀ m n, compare (a.lengthened m) (b.lengthened n) = compare a b) ∧
    (a.same b = true → compare a c = compare b c ∧ compare c a = compare c b) ∧
    (a.same b = false → ∃ i < max a.components.length b.components.length,
      DifferFirstAt a b i ∧ compare a b = Ord.compare (a.component i) (b.component i)) := by
  refine ⟨Std.OrientedCmp.eq_swap, Std.TransCmp.isLE_trans, same_iff_compare_eq.symm,
    same_iff_padded_eq.trans significant_eq_iff.symm, ?lengthened, ?replaced, ?decided⟩
  case lengthened =>
    intro m n
    simp only [compare_eq_compare_padded, padded_lengthened]
  case replaced =>
    intro h
    have heq := same_iff_compare_eq.mp h
    exact ⟨Std.TransCmp.congr_left heq, Std.TransCmp.congr_right heq⟩
  case decided =>
    intro h
    -- versions that are not the same stand for different sequences
    have hdiffer : a.padded ≠ b.padded := by
      intro hp
      rw [same_iff_padded_eq.mpr hp] at h
      exact nomatch h
    obtain ⟨i, hi⟩ := exists_differFirstAt hdiffer
    exact ⟨i, hi.lt_length, hi, hi.compare_eq⟩

/-- Between `1.4` and `1.4.0.525` the fourth component decides, which only the
    longer one has, and `1.4.0.0` may stand for `1.4` there. -/
theorem ordered_up_to_zeros_implicit :
    Version.same ⟨[1, 4]⟩ ⟨[1, 4, 0, 0]⟩ = true ∧
    (compare ⟨[1, 4]⟩ ⟨[1, 4, 0, 525]⟩).isLE = true ∧
    compare ⟨[1, 4]⟩ ⟨[1, 4, 0, 525]⟩ = compare ⟨[1, 4, 0, 0]⟩ ⟨[1, 4, 0, 525]⟩ ∧
    ∃ i < 4, DifferFirstAt ⟨[1, 4]⟩ ⟨[1, 4, 0, 525]⟩ i ∧
      compare ⟨[1, 4]⟩ ⟨[1, 4, 0, 525]⟩
        = Ord.compare (component ⟨[1, 4]⟩ i) (component ⟨[1, 4, 0, 525]⟩ i) := by
  obtain ⟨-, htrans, -, -, -, hreplaced, -⟩ :=
    ordered_up_to_zeros ⟨[1, 4]⟩ ⟨[1, 4, 0, 0]⟩ ⟨[1, 4, 0, 525]⟩
  obtain ⟨-, -, -, -, -, -, hdecided⟩ :=
    ordered_up_to_zeros ⟨[1, 4]⟩ ⟨[1, 4, 0, 525]⟩ ⟨[]⟩
  refine ⟨by decide, htrans (by decide) (by decide), (hreplaced (by decide)).1, ?_⟩
  exact hdecided (by decide)

end ModInstall.Version
