import ModInstall.Condition.Evaluation
import ModInstall.InstallState.Basic
import ModInstall.Proofs.Condition.Tree

/-! # What evaluation answers, and when it fails

    The evaluator walks a condition with a level counter and gives up at the
    first member it cannot judge.  Here both halves of its answer are said
    without it.  `Holds` is the truth of a condition, by recursion on what it
    says; `points` lists everything in a condition in the order of writing,
    groups before their members, each with its level; `Point.failure` says
    which of those points have no truth of their own.

    `evaluateAt_eq` ties the three together: the first failing point decides,
    and where there is none the answer is the truth. -/

namespace ModInstall

/-- A predicate holds under some facts.  A version that is not known meets no
    requirement, and a foreign test holds by its verdict alone. -/
def Predicate.Holds (facts : Facts) : Predicate → Prop
  | .gameVersion wanted => ∃ v, facts.gameVersion = some v ∧ v.atLeast wanted = true
  | .managerVersion wanted => ∃ v, facts.managerVersion = some v ∧ v.atLeast wanted = true
  | .file name state => facts.fileState name = state
  | .flag name value => facts.flagValue name = some value
  | .foreign test => facts.verdict test = some true

/-- What keeps a predicate from having a truth: only a foreign test without a
    verdict. -/
def Predicate.failure (facts : Facts) : Predicate → Option EvaluationError
  | .foreign test =>
      if (facts.verdict test).isNone then some (.unresolved test.kind) else none
  | _ => none

open Classical in
/-- A predicate without failure is evaluated to its truth. -/
theorem Predicate.evaluate_eq (facts : Facts) (p : Predicate) :
    p.evaluate facts
      = (p.failure facts).elim (.ok (decide (p.Holds facts))) .error := by
  cases p with
  | gameVersion wanted =>
      show Except.ok (reaches facts.gameVersion wanted) = _
      cases h : facts.gameVersion <;> simp [reaches, failure, Holds, h]
  | managerVersion wanted =>
      show Except.ok (reaches facts.managerVersion wanted) = _
      cases h : facts.managerVersion <;> simp [reaches, failure, Holds, h]
  | file name state =>
      show Except.ok (facts.fileState name == state) = Except.ok (decide _)
      exact congrArg _ (Bool.eq_iff_iff.mpr (by rw [beq_iff_eq, decide_eq_true_iff]; rfl))
  | flag name value =>
      show Except.ok (facts.flagValue name == some value) = Except.ok (decide _)
      exact congrArg _ (Bool.eq_iff_iff.mpr (by rw [beq_iff_eq, decide_eq_true_iff]; rfl))
  | foreign test =>
      cases h : facts.verdict test <;> simp [evaluate, failure, Holds, h]

namespace Condition

/-! ## Truth -/

/-- A condition holds under some facts: an atom by what it asks, a group of
    all when every member holds, a group of some when one does. -/
inductive Holds (facts : Facts) : Condition → Prop
  | atom {p : Predicate} : p.Holds facts → Holds facts (.atom p)
  | all {cs : List Condition} : (∀ c ∈ cs, Holds facts c) → Holds facts (.group .all cs)
  | some {c : Condition} {cs : List Condition} :
      c ∈ cs → Holds facts c → Holds facts (.group .some cs)

theorem holds_atom_iff {facts : Facts} {p : Predicate} :
    Holds facts (.atom p) ↔ p.Holds facts := by
  constructor
  · rintro ⟨h⟩
    exact h
  · exact Holds.atom

/-- A group of all holds when every member does, the empty one included. -/
theorem holds_all_iff {facts : Facts} {cs : List Condition} :
    Holds facts (.group .all cs) ↔ ∀ c ∈ cs, Holds facts c := by
  constructor
  · intro h
    cases h with
    | all h => exact h
  · exact Holds.all

/-- A group of some holds when a member does, the empty one never. -/
theorem holds_some_iff {facts : Facts} {cs : List Condition} :
    Holds facts (.group .some cs) ↔ ∃ c ∈ cs, Holds facts c := by
  constructor
  · intro h
    cases h with
    | some hc h => exact ⟨_, hc, h⟩
  · rintro ⟨c, hc, h⟩
    exact Holds.some hc h

open Classical in
/-- The operator makes of the truths of the members the truth of the group. -/
theorem combine_holds (facts : Facts) (o : Operator) (cs : List Condition) :
    o.combine (cs.map fun c => decide (Holds facts c))
      = decide (Holds facts (.group o cs)) := by
  rw [Bool.eq_iff_iff]
  cases o with
  | all => simp [Operator.combine, holds_all_iff]
  | some => simp [Operator.combine, holds_some_iff]

/-! ## Points of failure -/

/-- A point of a condition.  The level of a group counts the groups around it
    and itself; the level of an atom is that of the group it stands in. -/
inductive Point
  | group (level : Nat)
  | atom (level : Nat) (test : Predicate)

/-- What fails at a point: a group at the first level that is too deep, and an
    atom without a truth above that level. -/
def Point.failure (facts : Facts) : Point → Option EvaluationError
  | .group level => if level = maxLevel + 1 then some (.tooDeep maxLevel) else none
  | .atom level p => if level ≤ maxLevel then p.failure facts else none

mutual

/-- The points of a condition that stands in a group at `level`, in the order
    of writing. -/
def points (level : Nat) : Condition → List Point
  | .atom p => [.atom level p]
  | .group _ cs => .group (level + 1) :: pointsList (level + 1) cs

/-- The points of the members of a group at `level`. -/
def pointsList (level : Nat) : List Condition → List Point
  | [] => []
  | c :: cs => points level c ++ pointsList level cs

end

/-- The first failure among the points of a condition. -/
def firstFailure (facts : Facts) (level : Nat) (c : Condition) : Option EvaluationError :=
  (c.points level).findSome? (Point.failure facts)

/-- The first failure among the points of the members of a group. -/
def firstFailureList (facts : Facts) (level : Nat) (cs : List Condition) :
    Option EvaluationError :=
  (pointsList level cs).findSome? (Point.failure facts)

theorem firstFailure_atom {facts : Facts} {level : Nat} (p : Predicate)
    (h : level ≤ maxLevel) :
    firstFailure facts level (.atom p) = p.failure facts := by
  show ([Point.atom level p].findSome? _) = _
  cases hp : p.failure facts <;> simp [Point.failure, h, hp]

/-- A group fails first for its depth, and else where the first of its members
    fails. -/
theorem firstFailure_group (facts : Facts) (level : Nat) (o : Operator)
    (cs : List Condition) :
    firstFailure facts level (.group o cs)
      = if level = maxLevel then some (.tooDeep maxLevel)
        else firstFailureList facts (level + 1) cs := by
  show ((Point.group (level + 1) :: pointsList (level + 1) cs).findSome? _) = _
  by_cases h : level = maxLevel
  · simp [Point.failure, h]
  · simp [Point.failure, h, firstFailureList]

/-- Members fail in their order. -/
theorem firstFailureList_cons (facts : Facts) (level : Nat) (c : Condition)
    (cs : List Condition) :
    firstFailureList facts level (c :: cs)
      = (firstFailure facts level c).or (firstFailureList facts level cs) := by
  show ((points level c ++ pointsList level cs).findSome? _) = _
  exact List.findSome?_append

theorem firstFailureList_eq_none_iff {facts : Facts} {level : Nat} {cs : List Condition} :
    firstFailureList facts level cs = none ↔
      ∀ c ∈ cs, firstFailure facts level c = none := by
  induction cs with
  | nil => simp [firstFailureList, pointsList]
  | cons c cs ih =>
      rw [firstFailureList_cons, Option.or_eq_none_iff, ih, List.forall_mem_cons]

/-! ## The answer of the evaluator -/

open Classical in
/-- Members are evaluated to their truths, or the first failure among them is
    reported, once each member is known to be evaluated so. -/
theorem evaluateList_eq {facts : Facts} {level : Nat} {cs : List Condition}
    (h : ∀ c ∈ cs, c.evaluateAt facts (level + 1)
      = (firstFailure facts level c).elim (.ok (decide (Holds facts c))) .error) :
    evaluateList facts (level + 1) cs
      = (firstFailureList facts level cs).elim
          (.ok (cs.map fun c => decide (Holds facts c))) .error := by
  induction cs with
  | nil => rfl
  | cons c cs ih =>
      rw [evaluateList, h c (List.mem_cons_self ..),
        ih fun c hc => h c (List.mem_cons_of_mem _ hc), firstFailureList_cons]
      cases firstFailure facts level c with
      | some e => rfl
      | none => cases firstFailureList facts level cs <;> rfl

open Classical in
/-- **The answer of the evaluator**: the first failing point in the order of
    writing, and where none fails the truth.  The level never passes the limit
    by more than one, since a group beyond it is not entered. -/
theorem evaluateAt_eq (facts : Facts) (c : Condition) {level : Nat} (h : level ≤ maxLevel) :
    c.evaluateAt facts (level + 1)
      = (firstFailure facts level c).elim (.ok (decide (Holds facts c))) .error := by
  induction c generalizing level with
  | atom p =>
      rw [firstFailure_atom p h, evaluateAt, p.evaluate_eq]
      simp only [holds_atom_iff]
  | group o cs ih =>
      rw [firstFailure_group, evaluateAt]
      by_cases hl : level = maxLevel
      · -- the group itself is the first point that fails
        rw [if_pos hl, if_pos (by omega)]
        rfl
      · -- the members stand one level down, still within the limit
        rw [if_neg hl, if_neg (by omega), evaluateList_eq fun c hc => ih c hc (by omega)]
        cases firstFailureList facts (level + 1) cs with
        | some e => rfl
        | none =>
            show Except.ok (o.combine _) = Except.ok _
            rw [combine_holds]

/-- Nothing fails in a condition exactly when its groups stay within the limit
    and every foreign test in it has a verdict. -/
theorem firstFailure_eq_none_iff {facts : Facts} {c : Condition} {level : Nat}
    (h : level ≤ maxLevel) :
    firstFailure facts level c = none ↔
      level + c.depth ≤ maxLevel ∧ ∀ t, .foreign t ∈ c.atoms → (facts.verdict t).isSome := by
  induction c generalizing level with
  | atom p =>
      rw [firstFailure_atom p h]
      cases p <;> simp [Predicate.failure, depth, atoms, h, Option.isSome_iff_ne_none]
  | group o cs ih =>
      rw [firstFailure_group, depth, atoms]
      by_cases hl : level = maxLevel
      · -- a group has a depth of its own, so it is too deep here
        simp only [if_pos hl, reduceCtorEq, false_iff]
        omega
      · have hbelow : level + 1 ≤ maxLevel := by omega
        have hmembers : (∀ c ∈ cs, firstFailure facts (level + 1) c = none) ↔
            ∀ c ∈ cs, level + 1 + c.depth ≤ maxLevel ∧
              ∀ t, .foreign t ∈ c.atoms → (facts.verdict t).isSome :=
          forall_congr' fun c => forall_congr' fun hc => ih c hc hbelow
        rw [if_neg hl, firstFailureList_eq_none_iff, hmembers, ← Nat.add_assoc,
          add_depthList_le_iff hbelow]
        simp only [mem_atomsList, forall_and, and_congr_right_iff]
        intro _
        -- the tests of the group are those of its members
        constructor
        · rintro hv t ⟨c, hc, ht⟩
          exact hv c hc t ht
        · intro hv c hc t ht
          exact hv t ⟨c, hc, ht⟩

end Condition

namespace Requirement

/-- A requirement holds under some facts. -/
def Holds (facts : Facts) (r : Requirement) : Prop :=
  r.toCondition.Holds facts

/-- The points of a requirement in the order of writing, its own group first
    and at level 1. -/
def points (r : Requirement) : List Condition.Point :=
  r.toCondition.points 0

open Classical in
/-- **A requirement is true or false, or fails at its first failing point.** -/
theorem evaluate_eq (facts : Facts) (r : Requirement) :
    r.evaluate facts
      = (r.points.findSome? (Condition.Point.failure facts)).elim
          (.ok (decide (r.Holds facts))) .error :=
  Condition.evaluateAt_eq facts r.toCondition (Nat.zero_le _)

/-- **Evaluation is the Boolean semantics with an exact condition of failure.**
    It gives a truth exactly when the groups nest at most 256 deep and every
    foreign test anywhere has a verdict, and the truth is then that of the
    requirement; otherwise it fails with the first failing point in the order
    of writing, whatever its siblings have already settled. -/
theorem evaluate_outcome (r : Requirement) (s : InstallState) :
    (∀ truth, r.evaluate s.facts = .ok truth ↔
      r.depth ≤ 256 ∧
      (∀ t, .foreign t ∈ r.atoms → (s.verdict t.kind).isSome) ∧
      (truth = true ↔ r.Holds s.facts)) ∧
    (∀ e, r.evaluate s.facts = .error e ↔
      r.points.findSome? (Condition.Point.failure s.facts) = some e) := by
  have hnone : Condition.firstFailure s.facts 0 r.toCondition = none ↔ _ :=
    Condition.firstFailure_eq_none_iff (Nat.zero_le Condition.maxLevel)
  rw [Nat.zero_add] at hnone
  rw [evaluate_eq]
  show (∀ truth, (Condition.firstFailure s.facts 0 r.toCondition).elim _ _ = _ ↔ _) ∧
    (∀ e, (Condition.firstFailure s.facts 0 r.toCondition).elim _ _ = _ ↔
      Condition.firstFailure s.facts 0 r.toCondition = _)
  cases hf : Condition.firstFailure s.facts 0 r.toCondition with
  | none =>
      -- nothing fails, so the conditions hold and the answer is the truth
      obtain ⟨hdepth, hverdicts⟩ := hnone.mp hf
      refine ⟨fun truth => ?_, fun e => ?_⟩
      · have : r.depth ≤ 256 := hdepth
        simp only [Option.elim, Except.ok.injEq, this, true_and]
        constructor
        · rintro rfl
          exact ⟨hverdicts, by simp⟩
        · rintro ⟨-, ht⟩
          simp [← ht]
      · simp
  | some e =>
      -- something fails, so the conditions cannot hold
      rw [hf] at hnone
      refine ⟨fun truth => ?_, fun e' => ?_⟩
      · simp only [Option.elim, reduceCtorEq, false_iff]
        rintro ⟨hdepth, hverdicts, -⟩
        exact Option.some_ne_none _ (hnone.mpr ⟨hdepth, hverdicts⟩)
      · simp

/-- A flag that settles the group does not hide the test nobody judged. -/
example :
    (Requirement.mk .some [.atom (.flag "a" "On"), .atom (.foreign ⟨"k", [], ""⟩)]).evaluate
      (InstallState.empty.setFlag "a" "On").facts = .error (.unresolved "k") := rfl

end Requirement

end ModInstall
