import ModInstall.Proofs.Condition.Outcome
import ModInstall.Proofs.Traversal
import ModInstall.Proofs.Version.Order

/-! # Conditions after an upgrade

    A condition asks for versions only from below and never denies anything,
    so what holds before game and manager are upgraded holds afterwards.  The
    failures do not depend on versions at all.  Together: an upgrade turns no
    met requirement into an unmet one, and takes no conditional file away. -/

namespace ModInstall

/-- A version has not been lowered: if it was known it is still known, and has
    not become less.  One that was not known may have become anything. -/
def NotLowered (before after : Option Version) : Prop :=
  ∀ v, before = some v → ∃ v', after = some v' ∧ v'.atLeast v = true

/-- Facts are those of an upgrade of what others describe: the versions have
    not been lowered, and files, flags and verdicts are the same. -/
structure Facts.UpgradesTo (before after : Facts) : Prop where
  gameVersion    : NotLowered before.gameVersion after.gameVersion
  managerVersion : NotLowered before.managerVersion after.managerVersion
  fileState      : ∀ file, after.fileState file = before.fileState file
  flagValue      : ∀ flag, after.flagValue flag = before.flagValue flag
  verdict        : ∀ test, after.verdict test = before.verdict test

variable {before after : Facts}

/-- A requirement on a version is met by every version above one that meets
    it. -/
theorem NotLowered.reaches {before after : Option Version} (h : NotLowered before after)
    {wanted : Version} (hold : ∃ v, before = some v ∧ v.atLeast wanted = true) :
    ∃ v, after = some v ∧ v.atLeast wanted = true := by
  obtain ⟨v, hv, hwanted⟩ := hold
  obtain ⟨v', hv', hle⟩ := h v hv
  exact ⟨v', hv', Version.atLeast_trans hle hwanted⟩

/-- A predicate that holds is not lost by an upgrade: versions only rise, and
    nothing else changes. -/
theorem Predicate.Holds.upgrade {p : Predicate} (h : before.UpgradesTo after)
    (hp : p.Holds before) : p.Holds after := by
  cases p with
  | gameVersion wanted => exact h.gameVersion.reaches hp
  | managerVersion wanted => exact h.managerVersion.reaches hp
  | file name state => exact (h.fileState name).trans hp
  | flag name value => exact (h.flagValue name).trans hp
  | foreign test => exact (h.verdict test).trans hp

/-- What keeps a predicate from having a truth is not a matter of versions. -/
theorem Predicate.failure_upgrade (h : before.UpgradesTo after) (p : Predicate) :
    p.failure after = p.failure before := by
  cases p with
  | foreign test => rw [failure, failure, h.verdict]
  | gameVersion | managerVersion | file | flag => rfl

namespace Condition

/-- A condition that holds is not lost by an upgrade, since no operator negates
    its members. -/
theorem Holds.upgrade {c : Condition} (h : before.UpgradesTo after) (hc : Holds before c) :
    Holds after c := by
  induction c with
  | atom p => exact .atom (.upgrade h (holds_atom_iff.mp hc))
  | group o cs ih =>
      -- no operator asks for the falsehood of a member
      cases o with
      | all => exact .all fun c hmem => ih c hmem (holds_all_iff.mp hc c hmem)
      | some =>
          obtain ⟨c, hmem, hc⟩ := holds_some_iff.mp hc
          exact .some hmem (ih c hmem hc)

/-- What fails to be evaluated fails before and after: verdicts do not
    change. -/
theorem Point.failure_upgrade (h : before.UpgradesTo after) :
    Point.failure after = Point.failure before := by
  funext point
  cases point with
  | group level => rfl
  | atom level p => rw [failure, failure, p.failure_upgrade h]

end Condition

/-- How an evaluation may change: a failure stays as it is, and a truth may
    only turn from false to true. -/
def NoWorse : (before after : Except EvaluationError Bool) → Prop
  | .error e, result => result = .error e
  | .ok truth, result => ∃ truth', result = .ok truth' ∧ (truth = true → truth' = true)

/-- A requirement does no worse after an upgrade. -/
theorem Requirement.evaluate_upgrade (h : before.UpgradesTo after) (q : Requirement) :
    NoWorse (q.evaluate before) (q.evaluate after) := by
  classical
  rw [evaluate_eq, evaluate_eq, Condition.Point.failure_upgrade h]
  cases q.points.findSome? (Condition.Point.failure before) with
  | some e => rfl
  | none =>
      refine ⟨_, rfl, fun hq => ?_⟩
      exact decide_eq_true (Condition.Holds.upgrade h (of_decide_eq_true hq))

/-- Every file that is selected stays selected, in its place among the
    others. -/
theorem ConditionalFiles.select_upgrade (h : before.UpgradesTo after)
    {cs : List ConditionalFiles} {files : List FileEntry} (hs : select before cs = .ok files) :
    ∃ files', select after cs = .ok files' ∧ files.Sublist files' := by
  induction cs generalizing files with
  | nil => exact ⟨[], rfl, by obtain rfl := Except.ok.inj hs; exact .slnil⟩
  | cons c cs ih =>
      simp only [select, bind_eq_ok_iff, pure_eq_ok_iff] at hs ⊢
      obtain ⟨truth, ht, more, hmore, rfl⟩ := hs
      obtain ⟨more', hmore', hsub⟩ := ih hmore
      have hc : NoWorse (c.applies before) (c.applies after) := c.condition.evaluate_upgrade h
      rw [ht] at hc
      obtain ⟨truth', ht', htruth⟩ := hc
      refine ⟨_, ⟨truth', ht', more', hmore', rfl⟩, List.Sublist.append ?_ hsub⟩
      -- the files of a pattern are there before only if they are there after
      cases truth with
      | false => exact List.nil_sublist _
      | true => rw [htruth rfl]

/-- **An upgrade makes no met requirement unmet.**  Where files, flags and
    verdicts stay and no known version is lowered, what held still holds, what
    failed fails alike, and every conditional file that was selected still
    is, in the same order. -/
theorem InstallState.upgrade_keeps_requirements {s s' : InstallState}
    (h : s.facts.UpgradesTo s'.facts) :
    (∀ q : Requirement, q.evaluate s.facts = .ok true → q.evaluate s'.facts = .ok true) ∧
    (∀ (q : Requirement) e, q.evaluate s.facts = .error e ↔ q.evaluate s'.facts = .error e) ∧
    (∀ cs files, ConditionalFiles.select s.facts cs = .ok files →
      ∃ files', ConditionalFiles.select s'.facts cs = .ok files' ∧ files.Sublist files') := by
  refine ⟨?held, ?failed, fun cs files hs => ConditionalFiles.select_upgrade h hs⟩
  case held =>
    intro q hq
    have hworse := q.evaluate_upgrade h
    rw [hq] at hworse
    obtain ⟨truth, ht, htruth⟩ := hworse
    rw [ht, htruth rfl]
  case failed =>
    intro q e
    have hworse := q.evaluate_upgrade h
    cases hq : q.evaluate s.facts with
    | error e' =>
        rw [hq] at hworse
        rw [show q.evaluate s'.facts = .error e' from hworse]
    | ok truth =>
        -- a truth is followed by a truth, so neither side has failed
        rw [hq] at hworse
        obtain ⟨truth', ht, -⟩ := hworse
        rw [ht]
        simp only [reduceCtorEq]

/-- An installation of a game, with a flag that is set. -/
def installed (game : List UInt32) (manager : Option Version) : InstallState :=
  { InstallState.empty.setFlag "F" "On" with gameVersion := some ⟨game⟩, managerVersion := manager }

/-- From `1.5.0` to `1.10` the game has gone up, and a manager that was not
    known may be of any version: the file that was selected stays selected. -/
theorem InstallState.upgrade_keeps_requirements_game :
    ∃ files, ConditionalFiles.select (installed [1, 10] (some ⟨[0]⟩)).facts [
        { condition := ⟨.all, [.atom (.gameVersion ⟨[1, 5]⟩), .atom (.flag "F" "On")]⟩,
          files := [.ofSource .file "a.esp"] },
        { condition := ⟨.some, [.atom (.gameVersion ⟨[1, 9]⟩)]⟩,
          files := [.ofSource .file "b.esp"] }] = .ok files ∧
      [FileEntry.ofSource .file "a.esp"].Sublist files := by
  have hgame : NotLowered (some ⟨[1, 5, 0]⟩) (some ⟨[1, 10]⟩) := by
    intro v hv
    obtain rfl := Option.some.inj hv
    exact ⟨_, rfl, by decide⟩
  have hmanager : NotLowered none (some ⟨[0]⟩) := by
    intro v hv
    exact nomatch hv
  have hup : (installed [1, 5, 0] none).facts.UpgradesTo (installed [1, 10] (some ⟨[0]⟩)).facts :=
    ⟨hgame, hmanager, fun _ => rfl, fun _ => rfl, fun _ => rfl⟩
  exact (InstallState.upgrade_keeps_requirements hup).2.2 _ _ rfl

end ModInstall
