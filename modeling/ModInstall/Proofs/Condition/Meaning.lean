import ModInstall.Proofs.Condition.Json
import ModInstall.Proofs.InstallState.History

/-! # Conditions keep their meaning in JSON

    A condition may be passed on as a JSON value, and whoever passes it on may
    put the keys of its objects in another order.  It is read back the same but
    for the names of its files, which come back in lower case; and since a
    state looks files up without regard to case, the condition that is read
    back has in every state the truth, or the failure, of the one that was
    written. -/

namespace ModInstall

open Json (Decoder Reordered)

/-! ## Evaluation -/

namespace Condition

/-- Facts that tell files apart without regard to case settle a condition as
    they settle it with its file names in lower case. -/
theorem evaluateAt_lowered {facts : Facts}
    (hfiles : ∀ name, facts.fileState (Text.lowercase name) = facts.fileState name)
    (c : Condition) (level : Nat) :
    c.lowered.evaluateAt facts level = c.evaluateAt facts level := by
  induction c generalizing level with
  | atom p =>
      cases p with
      | file name state =>
          show Except.ok (facts.fileState (Text.lowercase name) == state) = Except.ok _
          rw [hfiles]
      | gameVersion | managerVersion | flag | foreign => rfl
  | group o cs ih =>
      rw [lowered, evaluateAt, evaluateAt, loweredList_eq_map]
      -- every member is evaluated one level down as it was before
      rw [evaluateList_congr (List.forall₂_map_left_iff.mpr
        (List.forall₂_same.mpr fun c hc => ih c hc (level + 1)))]

end Condition

/-! ## Reading back -/

namespace Predicate

/-- A predicate on a file whose name is in lower case is left as it is. -/
theorem lowered_eq_self {p : Predicate}
    (h : ∀ name state, p = .file name state → Text.lowercase name = name) : p.lowered = p := by
  cases p with
  | file name state => rw [lowered, h name state rfl]
  | gameVersion | managerVersion | flag | foreign => rfl

end Predicate

namespace Requirement

/-- A requirement whose versions have texts is read back from its JSON, however
    the keys are ordered, as itself with its file names in lower case.  In every
    state that has the same outcome, the failure included; and where the names
    were in lower case before, nothing has changed. -/
theorem json_keeps_meaning {q : Requirement} (h : ∀ p ∈ q.atoms, p.HasText) :
    (∀ v, Reordered q.toJson v → Decoder.ofValue? decoder v = some q.lowered) ∧
    (∀ s : InstallState, q.lowered.evaluate s.facts = q.evaluate s.facts) ∧
    ((∀ name state, .file name state ∈ q.atoms → Text.lowercase name = name) → q.lowered = q) := by
  refine ⟨fun v hv => ?_, fun s => ?_, fun hnames => ?_⟩
  · exact (reads_of_reordered h hv v.nesting).trans (if_pos (Nat.le_refl _))
  · have hcondition : q.lowered.toCondition = q.toCondition.lowered := by
      rw [toCondition, toCondition, Condition.lowered, Condition.loweredList_eq_map, lowered]
    rw [evaluate, evaluate, hcondition]
    exact Condition.evaluateAt_lowered s.fileState_lowercase q.toCondition 1
  · exact lowered_eq_self fun p hp => Predicate.lowered_eq_self fun name state he =>
      hnames name state (he ▸ hp)

/-- A requirement with every kind of predicate, a file name in upper case, and
    a group inside a group. -/
def mixed : Requirement where
  operator := .some
  members := [
    .atom (.gameVersion ⟨[1, 5, 2]⟩),
    .group .all [
      .atom (.file "Skyrim.ESM" .active), .atom (.flag "F" "And"),
      .atom (.foreign ⟨"predicate", [("operator", "Or"), ("operator", "")], "dependencies"⟩)],
    .group .some []]

/-- The requirement in JSON with its keys in the order of their names. -/
def mixedSorted : Json :=
  .object [
    ("dependencies", .array [
      .object [("predicate", .string "GameVersionAtLeast"), ("version", .string "1.5.2")],
      .object [
        ("dependencies", .array [
          .object [("file", .string "Skyrim.ESM"), ("predicate", .string "FileState"),
            ("state", .string "Active")],
          .object [("flag", .string "F"), ("predicate", .string "FlagEquals"),
            ("value", .string "And")],
          .object [
            ("attributes", .array [.array [.string "operator", .string "Or"],
              .array [.string "operator", .string ""]]),
            ("kind", .string "predicate"), ("predicate", .string "Extension"),
            ("text", .string "dependencies")]]),
        ("operator", .string "And")],
      .object [("dependencies", .array []), ("operator", .string "Or")]]),
    ("operator", .string "Or")]

/-- The sorted JSON of the example is its JSON with other orders of keys. -/
theorem mixedSorted_reordered : Reordered mixed.toJson mixedSorted := by
  -- the first two keys of these predicates change places, and three of the last one's
  have hfile : Reordered (Predicate.file "Skyrim.ESM" .active).toJson (.object [
      ("file", .string "Skyrim.ESM"), ("predicate", .string "FileState"),
      ("state", .string "Active")]) :=
    .of_perm (.swap _ _ _)
  have hflag : Reordered (Predicate.flag "F" "And").toJson (.object [
      ("flag", .string "F"), ("predicate", .string "FlagEquals"), ("value", .string "And")]) :=
    .of_perm (.swap _ _ _)
  have hforeign : Reordered (Predicate.foreign ⟨"predicate",
        [("operator", "Or"), ("operator", "")], "dependencies"⟩).toJson (.object [
      ("attributes", .array [.array [.string "operator", .string "Or"],
        .array [.string "operator", .string ""]]),
      ("kind", .string "predicate"), ("predicate", .string "Extension"),
      ("text", .string "dependencies")]) :=
    .of_perm ((List.reverse_perm [_, _, _]).symm.append_right [_])
  exact .swap (.refl _) (.array (.cons (.refl _) (.cons
    (.swap (.refl _) (.array (.cons hfile (.cons hflag (.cons hforeign .nil)))))
    (.cons (.swap (.refl _) (.refl _)) .nil))))

/-- From its sorted form the sample comes back with the name of its file in
    lower case and nothing else changed. -/
theorem json_keeps_meaning_mixed :
    (∀ p ∈ mixed.atoms, p.HasText) ∧
    Decoder.ofValue? decoder mixedSorted = some ⟨.some, [
      .atom (.gameVersion ⟨[1, 5, 2]⟩),
      .group .all [
        .atom (.file "skyrim.esm" .active), .atom (.flag "F" "And"),
        .atom (.foreign ⟨"predicate", [("operator", "Or"), ("operator", "")], "dependencies"⟩)],
      .group .some []]⟩ ∧
    ∀ s : InstallState, mixed.lowered.evaluate s.facts = mixed.evaluate s.facts := by
  have htext : ∀ p ∈ mixed.atoms, p.HasText := by
    simp [mixed, atoms, toCondition, Condition.atoms, Condition.atomsList, Predicate.HasText]
  obtain ⟨hreads, hmeans, -⟩ := json_keeps_meaning htext
  refine ⟨htext, (hreads _ mixedSorted_reordered).trans ?_, hmeans⟩
  have hname : Text.lowercase "Skyrim.ESM" = "skyrim.esm" := by decide +kernel
  simp [mixed, lowered, Condition.lowered, Condition.loweredList, Predicate.lowered, hname]

end Requirement

end ModInstall
