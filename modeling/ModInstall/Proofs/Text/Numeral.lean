import Mathlib.Data.List.Induction
import ModInstall.Proofs.Text.Blank
import ModInstall.Text.Numeral

/-! # Numerals as they are written

    A number is written in decimal without a sign or leading zeros.  Such a
    numeral is read back to the number, and no reader of numerals can take it
    for anything else: it begins with no sign, and with a zero only when it is
    zero.

    Readers take more than what is written: a sign in front, and leading
    zeros.  `Spells`, `IsNumeral` and `IsSigned` say what they take, digit by
    digit, and what number it stands for.  A word of 32 bits is read from just
    the numerals of its number. -/

namespace ModInstall.Text

theorem isDigit_of_mem_toDigits {c : Char} {n : Nat} (h : c ∈ Nat.toDigits 10 n) :
    c.isDigit = true :=
  Nat.isDigit_of_mem_toDigits (by decide) (by decide) h

/-- A numeral begins with a zero only when it is zero. -/
theorem head?_toDigits_ne_zero {n : Nat} (h : 0 < n) : (Nat.toDigits 10 n).head? ≠ some '0' := by
  induction n using Nat.strongRecOn with
  | ind n ih =>
      by_cases hn : n < 10
      · rw [Nat.toDigits_of_lt_base hn]
        have hdigit : ∀ m < 10, 0 < m → [m.digitChar].head? ≠ some '0' := by decide
        exact hdigit n hn h
      · have hsome := List.isSome_head?.mpr (Nat.toDigits_ne_nil (n := n / 10) (b := 10))
        rw [Nat.toDigits_of_base_le (by decide) (by omega), List.head?_append,
          Option.or_of_isSome hsome]
        exact ih (n / 10) (by omega) (by omega)

/-- The digits of a number spell it. -/
theorem digits?_toDigits (n : Nat) : digits? (Nat.toDigits 10 n) = some n := by
  have hall : (Nat.toDigits 10 n).all Char.isDigit = true :=
    List.all_eq_true.mpr fun c hc => isDigit_of_mem_toDigits hc
  rw [digits?, if_pos ⟨Nat.toDigits_ne_nil, hall⟩, Nat.ofDigitChars_ten_toDigits]

theorem unsigned?_toDigits (n : Nat) : unsigned? (Nat.toDigits 10 n) = some n := by
  cases hd : Nat.toDigits 10 n with
  | nil => exact absurd hd Nat.toDigits_ne_nil
  | cons c cs =>
      have hc : c ≠ '+' := by
        rintro rfl
        have hmem : '+' ∈ Nat.toDigits 10 n := by rw [hd]; exact List.mem_cons_self ..
        exact absurd (isDigit_of_mem_toDigits hmem) (by decide)
      rw [unsigned?, ← hd, digits?_toDigits]
      rintro cs' h
      exact hc (List.cons.inj h).1

/-- A word is read back from its digits. -/
theorem uint32?_toDigits (n : UInt32) : uint32? (Nat.toDigits 10 n.toNat) = some n := by
  rw [uint32?, unsigned?_toDigits, Option.bind_some, uint32OfNat?, if_pos n.toNat_lt]
  exact congrArg some UInt32.ofNat_toNat

/-- A word is the only one with its number. -/
theorem int32OfInt?_toInt (n : Int32) : int32OfInt? n.toInt = some n := by
  rw [int32OfInt?, if_pos ⟨n.le_toInt, Int.le_of_lt_add_one n.toInt_lt⟩]
  exact congrArg some n.ofInt_toInt

/-! ## What is read as a numeral -/

/-- One or more decimal digits, and the number that they spell. -/
inductive Spells : List Char → Nat → Prop
  | digit {c : Char} : c.isDigit = true → Spells [c] (c.toNat - '0'.toNat)
  | more {cs : List Char} {n : Nat} {c : Char} :
      Spells cs n → c.isDigit = true → Spells (cs ++ [c]) (10 * n + (c.toNat - '0'.toNat))

/-- Digits with or without a plus sign in front, and the number that they
    spell. -/
inductive IsNumeral : List Char → Nat → Prop
  | plain {cs : List Char} {n : Nat} : Spells cs n → IsNumeral cs n
  | plus {cs : List Char} {n : Nat} : Spells cs n → IsNumeral ('+' :: cs) n

/-- Digits with a sign in front or without one, and the whole number that they
    spell. -/
inductive IsSigned : List Char → Int → Prop
  | unsigned {cs : List Char} {n : Nat} : IsNumeral cs n → IsSigned cs n
  | minus {cs : List Char} {n : Nat} : Spells cs n → IsSigned ('-' :: cs) (-n)

variable {cs : List Char} {n : Nat} {z : Int}

/-- Nothing but digits spells a number. -/
theorem Spells.isDigit_of_mem (h : Spells cs n) {c : Char} (hc : c ∈ cs) : c.isDigit = true := by
  induction h with
  | digit hd =>
      rw [List.mem_singleton.mp hc]
      exact hd
  | more _ hd ih =>
      rcases List.mem_append.mp hc with hc | hc
      · exact ih hc
      · rw [List.mem_singleton.mp hc]
        exact hd

theorem Spells.ne_nil (h : Spells cs n) : cs ≠ [] := by
  cases h with
  | digit => exact List.cons_ne_nil _ _
  | more => exact List.append_ne_nil_of_right_ne_nil _ (List.cons_ne_nil _ _)

/-- Digits spell one number only: their value in base ten. -/
theorem Spells.value_eq (h : Spells cs n) : Nat.ofDigitChars 10 cs 0 = n := by
  induction h with
  | digit => rw [Nat.ofDigitChars_cons, Nat.ofDigitChars_nil, Nat.mul_zero, Nat.zero_add]
  | more _ _ ih => rw [Nat.ofDigitChars_append, ih, Nat.ofDigitChars_cons, Nat.ofDigitChars_nil]

/-- Digits spell the number that the last of them makes of what the others
    spell. -/
theorem spells_of_isDigit (hne : cs ≠ []) (h : ∀ c ∈ cs, c.isDigit = true) :
    Spells cs (Nat.ofDigitChars 10 cs 0) := by
  induction cs using List.reverseRecOn with
  | nil => exact absurd rfl hne
  | append_singleton cs c ih =>
      have hc : c.isDigit = true := h c (List.mem_append_right cs (List.mem_singleton_self c))
      rw [Nat.ofDigitChars_append, Nat.ofDigitChars_cons, Nat.ofDigitChars_nil]
      by_cases hcs : cs = []
      · subst hcs
        rw [Nat.ofDigitChars_nil, Nat.mul_zero, Nat.zero_add]
        exact .digit hc
      · exact .more (ih hcs fun d hd => h d (List.mem_append_left _ hd)) hc

/-- The digits that are read are those that spell the number. -/
theorem digits?_eq_some_iff : digits? cs = some n ↔ Spells cs n := by
  constructor
  · intro h
    rw [digits?, Option.ite_none_right_eq_some] at h
    obtain ⟨⟨hne, hall⟩, hn⟩ := h
    obtain rfl := Option.some.inj hn
    exact spells_of_isDigit hne (List.all_eq_true.mp hall)
  · intro h
    have hall : cs.all Char.isDigit = true := List.all_eq_true.mpr fun c hc => h.isDigit_of_mem hc
    rw [digits?, if_pos ⟨h.ne_nil, hall⟩, h.value_eq]

/-- **The numerals that are read** are digits, with or without a plus sign. -/
theorem unsigned?_eq_some_iff : unsigned? cs = some n ↔ IsNumeral cs n := by
  constructor
  · intro h
    rw [unsigned?.eq_def] at h
    split at h
    · exact .plus (digits?_eq_some_iff.mp h)
    · exact .plain (digits?_eq_some_iff.mp h)
  · intro h
    cases h with
    | plus h => exact digits?_eq_some_iff.mpr h
    | plain h =>
        rw [unsigned?]
        · exact digits?_eq_some_iff.mpr h
        · -- a sign is no digit
          rintro cs' rfl
          exact absurd (h.isDigit_of_mem (List.mem_cons_self ..)) (by decide)

/-- A numeral fits a word exactly when its number does. -/
theorem uint32?_eq_some_iff {w : UInt32} : uint32? cs = some w ↔ IsNumeral cs w.toNat := by
  simp only [uint32?, Option.bind_eq_some_iff, unsigned?_eq_some_iff, uint32OfNat?,
    Option.ite_none_right_eq_some, Option.some.injEq]
  constructor
  · rintro ⟨n, hn, hlt, rfl⟩
    rwa [UInt32.toNat_ofNat_of_lt' hlt]
  · intro h
    exact ⟨w.toNat, h, w.toNat_lt, UInt32.ofNat_toNat⟩

/-- A numeral is made of digits, but for a plus sign. -/
theorem IsNumeral.mem (h : IsNumeral cs n) {c : Char} (hc : c ∈ cs) :
    c = '+' ∨ c.isDigit = true := by
  cases h with
  | plain h => exact Or.inr (h.isDigit_of_mem hc)
  | plus h => exact (List.mem_cons.mp hc).imp_right h.isDigit_of_mem

/-- No dot stands in a numeral. -/
theorem IsNumeral.not_mem_dot (h : IsNumeral cs n) : '.' ∉ cs := by
  intro hdot
  exact absurd (h.mem hdot) (by decide)

/-- No blank stands in a numeral with a sign. -/
theorem IsSigned.isBlank_eq_false (h : IsSigned cs z) {c : Char} (hc : c ∈ cs) :
    isBlank c = false := by
  have hsign : c = '-' ∨ c = '+' ∨ c.isDigit = true := by
    cases h with
    | unsigned h => exact Or.inr (h.mem hc)
    | minus h => exact (List.mem_cons.mp hc).imp_right fun hc => Or.inr (h.isDigit_of_mem hc)
  rcases hsign with rfl | rfl | hdigit
  · decide
  · decide
  · exact isBlank_of_isDigit hdigit

/-- **The numerals with a sign that are read** are digits behind a minus, behind
    a plus, or without either. -/
theorem signed?_eq_some_iff : signed? cs = some z ↔ IsSigned cs z := by
  constructor
  · intro h
    rw [signed?.eq_def] at h
    split at h
    · obtain ⟨n, hn, rfl⟩ := Option.map_eq_some_iff.mp h
      exact .minus (digits?_eq_some_iff.mp hn)
    · obtain ⟨n, hn, rfl⟩ := Option.map_eq_some_iff.mp h
      exact .unsigned (unsigned?_eq_some_iff.mp hn)
  · intro h
    cases h with
    | minus h =>
        rw [signed?, digits?_eq_some_iff.mpr h]
        rfl
    | unsigned h =>
        rw [signed?, unsigned?_eq_some_iff.mpr h]
        · rfl
        · -- a minus is neither a plus nor a digit
          rintro cs' rfl
          exact absurd (h.mem (List.mem_cons_self ..)) (by decide)

/-- A numeral with a sign fits a word exactly when its number does. -/
theorem int32?_eq_some_iff {w : Int32} : int32? cs = some w ↔ IsSigned cs w.toInt := by
  simp only [int32?, Option.bind_eq_some_iff, signed?_eq_some_iff, int32OfInt?,
    Option.ite_none_right_eq_some, Option.some.injEq]
  constructor
  · rintro ⟨z, hz, ⟨hlow, hhigh⟩, rfl⟩
    rwa [Int32.toInt_ofInt_of_le hlow (Int.lt_add_one_of_le hhigh)]
  · intro h
    exact ⟨w.toInt, h, ⟨w.le_toInt, Int.le_of_lt_add_one w.toInt_lt⟩, w.ofInt_toInt⟩

end ModInstall.Text
