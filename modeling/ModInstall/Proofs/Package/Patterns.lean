import Mathlib.Logic.Relation
import ModInstall.Package.Basic
import ModInstall.Proofs.Traversal

/-! # Which patterns are asked, and which decide

    Patterns stand in two lists of a package, and the two are walked
    differently.  The type of a plugin is that of the first pattern that
    holds: the walk goes on while patterns are false (`Reached`) and stops at
    the first that is true or fails, so nothing behind that one is asked.
    Conditional files are asked one and all, so a failure anywhere fails them.

    From the first rule it follows which edits of a list of type patterns make
    no difference (`Edited`): those of false patterns, and any behind a true
    one. -/

namespace ModInstall

variable {facts : Facts}

namespace TypePattern

variable {default type : PluginType} {p q : TypePattern} {ps ps' : List TypePattern}

/-! ## One pattern after the other -/

/-- A pattern whose condition holds decides. -/
theorem firstMatch_cons_of_true (h : p.condition.evaluate facts = .ok true) :
    firstMatch facts default (p :: ps) = .ok p.type := by
  rw [firstMatch, h]
  rfl

/-- A pattern whose condition does not hold is passed over. -/
theorem firstMatch_cons_of_false (h : p.condition.evaluate facts = .ok false) :
    firstMatch facts default (p :: ps) = firstMatch facts default ps := by
  rw [firstMatch, h]
  rfl

/-- A pattern whose condition cannot be judged ends the search. -/
theorem firstMatch_cons_of_error {e : EvaluationError}
    (h : p.condition.evaluate facts = .error e) :
    firstMatch facts default (p :: ps) = .error e := by
  rw [firstMatch, h]
  rfl

/-- Facts that judge every pattern alike give the same answer. -/
theorem firstMatch_congr {facts' : Facts}
    (h : ∀ p ∈ ps, p.condition.evaluate facts = p.condition.evaluate facts') :
    firstMatch facts default ps = firstMatch facts' default ps := by
  induction ps with
  | nil => rfl
  | cons p ps ih =>
      rw [firstMatch, firstMatch, h p (List.mem_cons_self ..),
        ih fun p hp => h p (List.mem_cons_of_mem _ hp)]

/-- Every pattern has a truth, and none of them holds. -/
def NoneHolds (facts : Facts) (ps : List TypePattern) : Prop :=
  ∀ p ∈ ps, p.condition.evaluate facts = .ok false

/-- The walk along some patterns comes to one of them: none before it holds or
    fails. -/
def Reached (facts : Facts) (ps : List TypePattern) (p : TypePattern) : Prop :=
  ∃ before after, ps = before ++ p :: after ∧ NoneHolds facts before

theorem not_reached_nil : ¬ Reached facts [] p := by
  rintro ⟨before, after, h, -⟩
  exact List.append_ne_nil_of_right_ne_nil _ (List.cons_ne_nil _ _) h.symm

/-- The first pattern is always reached, and the walk goes on behind it only
    where it is false. -/
theorem reached_cons_iff :
    Reached facts (p :: ps) q ↔
      q = p ∨ p.condition.evaluate facts = .ok false ∧ Reached facts ps q := by
  constructor
  · rintro ⟨before, after, h, hbefore⟩
    rcases List.cons_eq_append_iff.mp h with ⟨rfl, hcons⟩ | ⟨rest, rfl, hps⟩
    · exact Or.inl (List.cons.inj hcons).1
    · obtain ⟨hp, hrest⟩ := List.forall_mem_cons.mp hbefore
      exact Or.inr ⟨hp, rest, after, hps, hrest⟩
  · rintro (rfl | ⟨hp, before, after, rfl, hbefore⟩)
    · exact ⟨[], ps, rfl, List.forall_mem_nil _⟩
    · exact ⟨p :: before, after, rfl, List.forall_mem_cons.mpr ⟨hp, hbefore⟩⟩

/-- A type is that of a pattern that is reached and holds, or the default one
    where every pattern is false. -/
theorem firstMatch_eq_ok_iff :
    firstMatch facts default ps = .ok type ↔
      (∃ p, Reached facts ps p ∧ p.condition.evaluate facts = .ok true ∧ p.type = type) ∨
      NoneHolds facts ps ∧ default = type := by
  induction ps with
  | nil => simp [firstMatch, not_reached_nil, NoneHolds]
  | cons p ps ih =>
      -- the first pattern is reached, and its truth says whether any other is
      cases hp : p.condition.evaluate facts with
      | error e =>
          rw [firstMatch_cons_of_error hp]
          simp [reached_cons_iff, NoneHolds, hp]
      | ok truth =>
          cases truth with
          | true =>
              rw [firstMatch_cons_of_true hp]
              simp [reached_cons_iff, NoneHolds, hp]
          | false =>
              rw [firstMatch_cons_of_false hp, ih]
              simp [reached_cons_iff, NoneHolds, hp, or_and_right, exists_or]

/-- A failure is that of a pattern that is reached. -/
theorem firstMatch_eq_error_iff {e : EvaluationError} :
    firstMatch facts default ps = .error e ↔
      ∃ p, Reached facts ps p ∧ p.condition.evaluate facts = .error e := by
  induction ps with
  | nil => simp [firstMatch, not_reached_nil]
  | cons p ps ih =>
      cases hp : p.condition.evaluate facts with
      | error e' =>
          rw [firstMatch_cons_of_error hp]
          simp [reached_cons_iff, hp]
      | ok truth =>
          cases truth with
          | true =>
              rw [firstMatch_cons_of_true hp]
              simp [reached_cons_iff, hp]
          | false =>
              rw [firstMatch_cons_of_false hp, ih]
              simp [reached_cons_iff, hp, or_and_right, exists_or]

/-! ## Edits that make no difference -/

/-- One edit of a list of patterns: a false one is put in or taken out
    anywhere, or everything behind a true one is replaced.  What it is replaced
    by may be the same patterns in another order, more of them or fewer, and
    they may fail. -/
inductive Edited (facts : Facts) : List TypePattern → List TypePattern → Prop
  | insert {front back : List TypePattern} {p : TypePattern}
      (h : p.condition.evaluate facts = .ok false) :
      Edited facts (front ++ back) (front ++ p :: back)
  | delete {front back : List TypePattern} {p : TypePattern}
      (h : p.condition.evaluate facts = .ok false) :
      Edited facts (front ++ p :: back) (front ++ back)
  | behind {front : List TypePattern} {p : TypePattern} (back back' : List TypePattern)
      (h : p.condition.evaluate facts = .ok true) :
      Edited facts (front ++ p :: back) (front ++ p :: back')

/-- Lists that decide alike still do with the same patterns before them. -/
theorem firstMatch_append_congr (front : List TypePattern)
    (h : firstMatch facts default ps = firstMatch facts default ps') :
    firstMatch facts default (front ++ ps) = firstMatch facts default (front ++ ps') := by
  induction front with
  | nil => exact h
  | cons p front ih =>
      rw [List.cons_append, List.cons_append, firstMatch, firstMatch, ih]

/-- An edit changes no answer. -/
theorem Edited.firstMatch_eq (h : Edited facts ps ps') (default : PluginType) :
    firstMatch facts default ps' = firstMatch facts default ps := by
  cases h with
  | @insert front back p h => exact firstMatch_append_congr front (firstMatch_cons_of_false h)
  | @delete front back p h =>
      exact firstMatch_append_congr front (firstMatch_cons_of_false h).symm
  | @behind front p back back' h =>
      refine firstMatch_append_congr front ?_
      rw [firstMatch_cons_of_true h, firstMatch_cons_of_true h]

/-- Any number of edits changes no answer. -/
theorem firstMatch_eq_of_edits (h : Relation.ReflTransGen (Edited facts) ps ps')
    (default : PluginType) :
    firstMatch facts default ps' = firstMatch facts default ps := by
  induction h with
  | refl => rfl
  | tail _ hedit ih => exact (hedit.firstMatch_eq default).trans ih

end TypePattern

/-! ## Conditional files -/

namespace ConditionalFiles

variable {cs : List ConditionalFiles}

/-- All patterns are asked, and where all of them answer, the files are those
    of the patterns that hold. -/
theorem select_eq (facts : Facts) (cs : List ConditionalFiles) :
    select facts cs = (cs.mapM (applies facts)).map fun _ =>
      (cs.filter fun c => c.applies facts = .ok true).flatMap (·.files) := by
  induction cs with
  | nil => rfl
  | cons c cs ih =>
      rw [select, ih, List.mapM_cons]
      cases hc : c.applies facts with
      | error e => rfl
      | ok truth =>
          cases cs.mapM (applies facts) with
          | error e => rfl
          | ok truths =>
              show Except.ok ((if truth then c.files else []) ++ _) = Except.ok _
              cases truth <;> simp [hc]

/-- Files are selected where all conditions have a truth, and are those of the
    patterns that hold. -/
theorem select_eq_ok_iff {files : List FileEntry} :
    select facts cs = .ok files ↔
      (∀ c ∈ cs, ∃ truth, c.applies facts = .ok truth) ∧
      files = (cs.filter fun c => c.applies facts = .ok true).flatMap (·.files) := by
  rw [select_eq, map_eq_ok_iff]
  constructor
  · rintro ⟨truths, ht, rfl⟩
    refine ⟨fun c hc => ?_, rfl⟩
    obtain ⟨truth, -, h⟩ := exists_mem_right_of_forall₂ (mapM_eq_ok_iff.mp ht) hc
    exact ⟨truth, h⟩
  · rintro ⟨h, rfl⟩
    obtain ⟨truths, ht⟩ := exists_forall₂ h
    exact ⟨truths, mapM_eq_ok_iff.mpr ht, rfl⟩

/-- What fails is the first pattern without a truth. -/
theorem select_eq_error_iff {e : EvaluationError} :
    select facts cs = .error e ↔
      ∃ before c after, cs = before ++ c :: after ∧
        (∀ b ∈ before, ∃ truth, b.applies facts = .ok truth) ∧ c.applies facts = .error e := by
  rw [select_eq, ← mapM_eq_error_iff]
  cases cs.mapM (applies facts) <;> simp [Except.map]

/-- Patterns can all be asked unless one of them fails. -/
theorem exists_select_eq_error_iff :
    (∃ e, select facts cs = .error e) ↔ ∃ c ∈ cs, ∃ e, c.applies facts = .error e := by
  constructor
  · rintro ⟨e, h⟩
    obtain ⟨before, c, after, rfl, -, hc⟩ := select_eq_error_iff.mp h
    exact ⟨c, List.mem_append_right _ (List.mem_cons_self ..), e, hc⟩
  · rintro ⟨c, hc, e, he⟩
    cases h : select facts cs with
    | error e' => exact ⟨e', rfl⟩
    | ok files =>
        obtain ⟨truth, ht⟩ := (select_eq_ok_iff.mp h).1 c hc
        rw [he] at ht
        exact nomatch ht

end ConditionalFiles

/-- **The first pattern that does not pass decides.**  A computed type is that
    of the first pattern that holds, with every one before it false, or the
    default where all are false; it fails exactly with the first pattern that
    is reached and fails.  So edits of false patterns, and any edits behind a
    true one, make no difference.  Conditional files are asked one and all:
    they fail exactly when one of them fails, with the first such failure, and
    are otherwise the files of the patterns that hold, in their order. -/
theorem first_pattern_decides (facts : Facts) (default : PluginType) (ps : List TypePattern)
    (cs : List ConditionalFiles) :
    (∀ type, (TypeRule.computed default ps).resolve facts = .ok type ↔
      (∃ p, TypePattern.Reached facts ps p ∧ p.condition.evaluate facts = .ok true ∧
        p.type = type) ∨
      TypePattern.NoneHolds facts ps ∧ default = type) ∧
    (∀ e, (TypeRule.computed default ps).resolve facts = .error e ↔
      ∃ p, TypePattern.Reached facts ps p ∧ p.condition.evaluate facts = .error e) ∧
    (∀ ps', Relation.ReflTransGen (TypePattern.Edited facts) ps ps' →
      (TypeRule.computed default ps').resolve facts
        = (TypeRule.computed default ps).resolve facts) ∧
    ((∃ e, ConditionalFiles.select facts cs = .error e) ↔
      ∃ c ∈ cs, ∃ e, c.applies facts = .error e) ∧
    (∀ e, ConditionalFiles.select facts cs = .error e ↔
      ∃ before c after, cs = before ++ c :: after ∧
        (∀ b ∈ before, ∃ truth, b.applies facts = .ok truth) ∧ c.applies facts = .error e) ∧
    (∀ files, ConditionalFiles.select facts cs = .ok files ↔
      (∀ c ∈ cs, ∃ truth, c.applies facts = .ok truth) ∧
      files = (cs.filter fun c => c.applies facts = .ok true).flatMap (·.files)) :=
  ⟨fun _ => TypePattern.firstMatch_eq_ok_iff, fun _ => TypePattern.firstMatch_eq_error_iff,
    fun _ h => TypePattern.firstMatch_eq_of_edits h default,
    ConditionalFiles.exists_select_eq_error_iff,
    fun _ => ConditionalFiles.select_eq_error_iff, fun _ => ConditionalFiles.select_eq_ok_iff⟩

/-- The group that holds everywhere. -/
def always : Requirement := ⟨.all, []⟩

/-- The group that holds nowhere. -/
def never : Requirement := ⟨.some, []⟩

/-- A group that has no truth until the host has given its verdict. -/
def unjudged : Requirement := ⟨.all, [.atom (.foreign ⟨"k", [], ""⟩)]⟩

/-- A pattern that fails does not matter behind one that holds, nor a false one
    in front of it; among conditional files it does, though another one
    holds. -/
theorem first_pattern_decides_unjudged :
    (TypeRule.computed .optional [⟨.notUsable, never⟩, ⟨.required, always⟩,
      ⟨.notUsable, unjudged⟩]).resolve Facts.unknown = .ok .required ∧
    ∃ e, ConditionalFiles.select Facts.unknown [⟨always, []⟩, ⟨unjudged, []⟩] = .error e := by
  obtain ⟨hok, -, hedits, hfails, -, -⟩ := first_pattern_decides Facts.unknown .optional
    [⟨.required, always⟩] [⟨always, []⟩, ⟨unjudged, []⟩]
  have halone : (TypeRule.computed .optional [⟨.required, always⟩]).resolve Facts.unknown
      = .ok .required :=
    (hok .required).mpr (Or.inl ⟨⟨.required, always⟩,
      TypePattern.reached_cons_iff.mpr (Or.inl rfl), rfl, rfl⟩)
  have hbehind : TypePattern.Edited Facts.unknown [⟨.required, always⟩]
      [⟨.required, always⟩, ⟨.notUsable, unjudged⟩] :=
    @TypePattern.Edited.behind _ [] _ [] _ rfl
  have hinsert : TypePattern.Edited Facts.unknown [⟨.required, always⟩, ⟨.notUsable, unjudged⟩]
      [⟨.notUsable, never⟩, ⟨.required, always⟩, ⟨.notUsable, unjudged⟩] :=
    @TypePattern.Edited.insert _ [] _ _ rfl
  exact ⟨(hedits _ (.tail (.single hbehind) hinsert)).trans halone,
    hfails.mpr ⟨⟨unjudged, []⟩, by decide, _, rfl⟩⟩

end ModInstall
