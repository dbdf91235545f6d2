import ModInstall.Proofs.Text.Blank
import ModInstall.Proofs.Text.Numeral
import ModInstall.Proofs.Text.Split
import ModInstall.Version

/-! # Versions and their texts

    The text of a version is read back to the same components, not merely to a
    version that compares equal.  Only the version without components has no
    such text, and reading never gives it. -/

namespace ModInstall

namespace Text

/-- What stands in joined pieces stands between them or in one of them. -/
theorem mem_intercalate {c : Char} {sep : List Char} {ws : List (List Char)}
    (h : c ∈ List.intercalate sep ws) : c ∈ sep ∨ ∃ w ∈ ws, c ∈ w := by
  induction ws with
  | nil => exact nomatch h
  | cons w ws ih =>
      cases ws with
      | nil =>
          rw [List.intercalate_singleton] at h
          exact Or.inr ⟨w, List.mem_cons_self .., h⟩
      | cons w' ws =>
          rw [List.intercalate_cons_cons, List.append_assoc, List.mem_append, List.mem_append] at h
          rcases h with h | h | h
          · exact Or.inr ⟨w, List.mem_cons_self .., h⟩
          · exact Or.inl h
          · rcases ih h with h | ⟨v, hv, hc⟩
            · exact Or.inl h
            · exact Or.inr ⟨v, List.mem_cons_of_mem _ hv, hc⟩

end Text

namespace Version

/-- The text of a version: its numerals, with dots between them. -/
theorem toList_display (v : Version) :
    v.display.toList
      = List.intercalate ['.'] (v.components.map fun c => Nat.toDigits 10 c.toNat) := by
  rw [display, String.toList_intercalate]
  simp [Function.comp_def]

/-- Digits and dots are no blanks. -/
theorem isBlank_of_mem_display {v : Version} {c : Char} (h : c ∈ v.display.toList) :
    Text.isBlank c = false := by
  rw [toList_display] at h
  rcases Text.mem_intercalate h with hdot | ⟨piece, hp, hc⟩
  · rw [List.mem_singleton.mp hdot]
    decide
  · obtain ⟨n, -, rfl⟩ := List.mem_map.mp hp
    exact Text.isBlank_of_isDigit (Text.isDigit_of_mem_toDigits hc)

/-- **A version is read back from its text**, component by component. -/
theorem parse?_display {v : Version} (h : v.components ≠ []) : parse? v.display = some v := by
  have hdots : ∀ piece ∈ v.components.map fun c => Nat.toDigits 10 c.toNat, '.' ∉ piece := by
    intro piece hp hdot
    obtain ⟨n, -, rfl⟩ := List.mem_map.mp hp
    exact absurd (Text.isDigit_of_mem_toDigits hdot) (by decide)
  -- no numeral contains a dot, so cutting at the dots gives the numerals back
  have hpieces : Text.pieces (· == '.') (Text.trim v.display.toList)
      = v.components.map fun c => Nat.toDigits 10 c.toNat := by
    rw [Text.trim_eq_self fun c hc => isBlank_of_mem_display hc, toList_display,
      Text.pieces_eq_splitOnP, ← List.splitOn_eq_splitOnP]
    exact List.splitOn_intercalate '.' hdots (by simpa using h)
  have hread : ∀ cs : List UInt32,
      (cs.map fun c => Nat.toDigits 10 c.toNat).mapM Text.uint32? = some cs := by
    intro cs
    induction cs with
    | nil => rfl
    | cons c cs ih => simp [Text.uint32?_toDigits, ih]
  rw [parse?, hpieces, hread]
  rfl

/-- A version that was read from a text has a component. -/
theorem components_ne_nil_of_parse? {text : String} {v : Version} (h : parse? text = some v) :
    v.components ≠ [] := by
  obtain ⟨cs, hcs, rfl⟩ := Option.map_eq_some_iff.mp h
  rintro rfl
  cases hp : Text.pieces (· == '.') (Text.trim text.toList) with
  | nil => exact Text.pieces_ne_nil _ _ hp
  | cons w ws =>
      rw [hp, List.mapM_cons] at hcs
      simp only [Option.bind_eq_bind, Option.bind_eq_some_iff] at hcs
      obtain ⟨n, -, ns, -, hn⟩ := hcs
      exact nomatch hn

end Version

end ModInstall
