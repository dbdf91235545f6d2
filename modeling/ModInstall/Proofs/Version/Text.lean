import ModInstall.Proofs.Package.Values
import ModInstall.Proofs.Version

/-! # The texts of versions

    A version is written as numerals with single dots between them.  Which
    texts are read is said here by their grammar (`Dotted`), with no word about
    how they are cut into pieces: blanks around the text do not count, and
    every numeral has to fit a component.  What a version is displayed as is
    such a text, and is read to the version again. -/

namespace ModInstall

namespace Text

variable {text : List Char}

/-- Numerals with single dots between them, one at least, and the numbers that
    they stand for. -/
inductive Dotted : List Char → List Nat → Prop
  | last {part : List Char} {n : Nat} : IsNumeral part n → Dotted part [n]
  | dot {part text : List Char} {n : Nat} {ns : List Nat} :
      IsNumeral part n → Dotted text ns → Dotted (part ++ '.' :: text) (n :: ns)

/-- A numeral has no dot to split it at. -/
theorem pieces_of_isNumeral {part : List Char} {n : Nat} (h : IsNumeral part n) :
    pieces (· == '.') part = [part] := by
  refine pieces_of_forall_not fun c hc => beq_false_of_ne ?_
  rintro rfl
  exact h.not_mem_dot hc

/-- What is read piece by piece is a dotted text: the pieces are what stands
    between its dots. -/
theorem dotted_intercalate {parts : List (List Char)} (hne : parts ≠ []) {ws : List UInt32}
    (h : parts.mapM uint32? = some ws) :
    Dotted (List.intercalate ['.'] parts) (ws.map UInt32.toNat) := by
  induction parts generalizing ws with
  | nil => exact absurd rfl hne
  | cons part parts ih =>
      rw [List.mapM_cons] at h
      obtain ⟨w, hw, hrest⟩ := Option.bind_eq_some_iff.mp h
      obtain ⟨ws', hws, heq⟩ := Option.bind_eq_some_iff.mp hrest
      obtain rfl := Option.some.inj heq
      have hnumeral : IsNumeral part w.toNat := uint32?_eq_some_iff.mp hw
      cases parts with
      | nil =>
          obtain rfl := Option.some.inj hws
          rw [List.intercalate_singleton]
          exact .last hnumeral
      | cons part' parts =>
          rw [List.intercalate_cons_cons, List.append_assoc]
          exact .dot hnumeral (ih (List.cons_ne_nil _ _) hws)

/-- **The texts that are read piece by piece** are the dotted ones whose
    numbers fit their words. -/
theorem mapM_pieces_eq_some_iff {ws : List UInt32} :
    (pieces (· == '.') text).mapM uint32? = some ws ↔ Dotted text (ws.map UInt32.toNat) := by
  constructor
  · intro h
    have hdotted := dotted_intercalate (pieces_ne_nil _ text) h
    rwa [pieces_eq_splitOnP, ← List.splitOn_eq_splitOnP, List.intercalate_splitOn] at hdotted
  · intro h
    generalize hns : ws.map UInt32.toNat = ns at h
    induction h generalizing ws with
    | last hpart =>
        obtain ⟨w, rfl, rfl⟩ := List.map_eq_singleton_iff.mp hns
        rw [pieces_of_isNumeral hpart, List.mapM_cons, uint32?_eq_some_iff.mpr hpart]
        rfl
    | @dot part rest n ns hpart _ ih =>
        obtain ⟨w, ws', rfl, rfl, hws⟩ := List.map_eq_cons_iff.mp hns
        have hcut : pieces (· == '.') (part ++ '.' :: rest) = part :: pieces (· == '.') rest := by
          rw [pieces_append (by rfl), pieces_of_isNumeral hpart, List.singleton_append]
        rw [hcut, List.mapM_cons, uint32?_eq_some_iff.mpr hpart, ih hws]
        rfl

end Text

namespace Version

open Text (Dotted trim)

/-- A text is read to a version when it is dotted between blanks and its
    numbers are the components. -/
theorem parse?_eq_some_iff {text : String} {v : Version} :
    parse? text = some v ↔ Dotted (trim text.toList) (v.components.map UInt32.toNat) := by
  rw [parse?, Option.map_eq_some_iff, ← Text.mapM_pieces_eq_some_iff]
  constructor
  · rintro ⟨ws, hws, rfl⟩
    exact hws
  · intro h
    exact ⟨v.components, h, rfl⟩

/-- A text is read when it is dotted between blanks and its numbers fit. -/
theorem exists_parse?_iff {text : String} :
    (∃ v, parse? text = some v) ↔
      ∃ ns, Dotted (trim text.toList) ns ∧ ∀ n ∈ ns, n ≤ 4294967295 := by
  simp only [parse?_eq_some_iff]
  constructor
  · rintro ⟨v, h⟩
    refine ⟨_, h, fun n hn => ?_⟩
    obtain ⟨w, -, rfl⟩ := List.mem_map.mp hn
    exact Nat.le_of_lt_succ w.toNat_lt
  · rintro ⟨ns, h, hfit⟩
    refine ⟨⟨ns.map UInt32.ofNat⟩, ?_⟩
    have hback : (ns.map UInt32.ofNat).map UInt32.toNat = ns := by
      rw [List.map_map]
      refine (List.map_congr_left fun n hn => ?_).trans (List.map_id ns)
      exact UInt32.toNat_ofNat_of_lt' (Nat.lt_succ_of_le (hfit n hn))
    rwa [hback]

/-- **A version is read exactly from the dotted texts** whose numerals fit its
    components, with blanks around them or not, and its components are then
    those numbers in order; any other text fails with the error that carries
    it whole.  A version that has a component is read back from what it is
    displayed as, component by component, so what is displayed of a version
    that was read is read to it again. -/
theorem read_from_dotted (text : String) :
    (∀ v, Reader.versionOf text = .ok v ↔
      Dotted (trim text.toList) (v.components.map UInt32.toNat)) ∧
    ((∃ v, Reader.versionOf text = .ok v) ↔
      ∃ ns, Dotted (trim text.toList) ns ∧ ∀ n ∈ ns, n ≤ 4294967295) ∧
    (∀ e, Reader.versionOf text = .error e ↔ e = .badVersion text ∧
      ¬ ∃ ns, Dotted (trim text.toList) ns ∧ ∀ n ∈ ns, n ≤ 4294967295) ∧
    (∀ v : Version, v.components ≠ [] → Reader.versionOf v.display = .ok v) ∧
    (∀ v, Reader.versionOf text = .ok v →
      (Reader.versionOf v.display).map display = .ok v.display) := by
  have hback : ∀ v : Version, v.components ≠ [] → Reader.versionOf v.display = .ok v := by
    intro v hv
    exact Reader.versionOf_eq_ok_iff.mpr (parse?_display hv)
  refine ⟨?read, ?accepted, ?failed, hback, ?displayed⟩
  case read =>
    intro v
    exact Reader.versionOf_eq_ok_iff.trans parse?_eq_some_iff
  case accepted =>
    simp only [Reader.versionOf_eq_ok_iff]
    exact exists_parse?_iff
  case failed =>
    intro e
    rw [Reader.versionOf_eq_error_iff, ← exists_parse?_iff, Option.eq_none_iff_forall_ne_some,
      not_exists]
  case displayed =>
    intro v hv
    have hne := components_ne_nil_of_parse? (Reader.versionOf_eq_ok_iff.mp hv)
    rw [hback v hne]
    rfl

/-- Signs, leading zeros and blanks are read over, and what is displayed
    instead is read to the same components. -/
theorem read_from_dotted_loose :
    Reader.versionOf " +1.007.0\u3000" = .ok ⟨[1, 7, 0]⟩ ∧
    (display ⟨[1, 7, 0]⟩ = "1.7.0" ∧ Reader.versionOf (display ⟨[1, 7, 0]⟩) = .ok ⟨[1, 7, 0]⟩) ∧
    (Reader.versionOf (display ⟨[1, 7, 0]⟩)).map display = .ok (display ⟨[1, 7, 0]⟩) := by
  obtain ⟨-, -, -, hback, hdisplayed⟩ := read_from_dotted " +1.007.0\u3000"
  have hread : Reader.versionOf " +1.007.0\u3000" = .ok ⟨[1, 7, 0]⟩ := by decide +kernel
  exact ⟨hread, ⟨by decide +kernel, hback _ (by decide)⟩, hdisplayed _ hread⟩

end Version

end ModInstall
