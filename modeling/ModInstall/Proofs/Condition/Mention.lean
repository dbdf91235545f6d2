import ModInstall.Proofs.Condition.Tree
import ModInstall.Proofs.InstallState.History
import ModInstall.Proofs.Package.Parts
import ModInstall.Proofs.Package.Patterns
import ModInstall.Proofs.Version.Order

/-! # What a condition mentions

    An atom asks a state one thing (`Predicate.query`), and a condition asks
    what its atoms ask.  So two states that agree on all of that give it the
    same truth or the same failure, whatever else they say.  Versions agree
    when they are the same as versions: `1.5` and `1.5.0` are written
    differently and no condition can tell.

    Choosing a plugin writes nothing but the flags of the plugin.  What is
    judged by conditions that name none of these is therefore judged as
    before. -/

namespace ModInstall

/-- What a predicate asks. -/
def Predicate.query : Predicate → Query
  | .gameVersion _ => .gameVersion
  | .managerVersion _ => .managerVersion
  | .file name _ => .file name
  | .flag name _ => .flag name
  | .foreign test => .verdict test.kind

/-- Two answers to a query agree.  Versions do when both are unknown or both
    are known and the same; all other answers when they are equal. -/
def Query.Agree : (q : Query) → (a b : q.Answer) → Prop
  | .gameVersion, a, b | .managerVersion, a, b => Option.Rel (fun v w => v.same w = true) a b
  | .flag _, a, b | .file _, a, b | .verdict _, a, b => a = b

/-- Two states agree on a query. -/
def InstallState.AgreesOn (s s' : InstallState) (q : Query) : Prop :=
  q.Agree (s.ask q) (s'.ask q)

/-- A requirement asks something with one of its atoms. -/
def Requirement.Mentions (r : Requirement) (q : Query) : Prop :=
  ∃ p ∈ r.atoms, p.query = q

/-- The condition of some pattern of a rule asks something. -/
def TypeRule.Mentions (rule : TypeRule) (q : Query) : Prop :=
  ∃ p ∈ rule.patterns, p.condition.Mentions q

variable {s s' : InstallState} {facts facts' : Facts}

/-! ## Atoms -/

/-- What a version is at least, every version is that is the same. -/
theorem Version.atLeast_congr {v w : Version} (h : v.same w = true) (wanted : Version) :
    v.atLeast wanted = w.atLeast wanted := by
  rw [Bool.eq_iff_iff, atLeast_iff, atLeast_iff, same_iff_padded_eq.mp h]

/-- Versions that compare as equal reach the same versions. -/
theorem reaches_congr {installed installed' : Option Version}
    (h : Option.Rel (fun v w => v.same w = true) installed installed') (wanted : Version) :
    reaches installed wanted = reaches installed' wanted := by
  cases h with
  | none => rfl
  | some hsame => exact Version.atLeast_congr hsame wanted

/-- An atom is judged by the answer to its query. -/
theorem Predicate.evaluate_congr {p : Predicate} (h : s.AgreesOn s' p.query) :
    p.evaluate s.facts = p.evaluate s'.facts := by
  cases p with
  | gameVersion wanted | managerVersion wanted => exact congrArg Except.ok (reaches_congr h wanted)
  | file name state =>
      have hfile : s.fileState name = s'.fileState name := h
      show Except.ok (s.fileState name == state) = Except.ok (s'.fileState name == state)
      rw [hfile]
  | flag name value =>
      have hflag : s.flagValue name = s'.flagValue name := h
      show Except.ok (s.flagValue name == some value) = Except.ok (s'.flagValue name == some value)
      rw [hflag]
  | foreign test =>
      have hverdict : s.facts.verdict test = s'.facts.verdict test := h
      rw [evaluate, evaluate, hverdict]

/-! ## Conditions and rules -/

/-- Facts that judge the atoms of a condition alike judge the condition alike,
    at whatever level it stands. -/
theorem Condition.evaluateAt_congr {c : Condition}
    (h : ∀ p ∈ c.atoms, p.evaluate facts = p.evaluate facts') (level : Nat) :
    c.evaluateAt facts level = c.evaluateAt facts' level := by
  induction c generalizing level with
  | atom p => exact h p (List.mem_singleton_self p)
  | group o cs ih =>
      have hmembers : ∀ c ∈ cs,
          c.evaluateAt facts (level + 1) = c.evaluateAt facts' (level + 1) := by
        intro c hc
        exact ih c hc (fun p hp => h p (mem_atomsList.mpr ⟨c, hc, hp⟩)) (level + 1)
      rw [evaluateAt, evaluateAt, evaluateList_congr (List.forall₂_same.mpr hmembers)]

/-- A requirement is judged by what it mentions. -/
theorem Requirement.evaluate_congr {r : Requirement}
    (h : ∀ q, r.Mentions q → s.AgreesOn s' q) : r.evaluate s.facts = r.evaluate s'.facts :=
  Condition.evaluateAt_congr (fun p hp => p.evaluate_congr (h p.query ⟨p, hp, rfl⟩)) 1

/-- Facts that judge the patterns of a rule alike give it the same type. -/
theorem TypeRule.resolve_congr {rule : TypeRule}
    (h : ∀ p ∈ rule.patterns, p.condition.evaluate facts = p.condition.evaluate facts') :
    rule.resolve facts = rule.resolve facts' := by
  cases rule with
  | fixed type => rfl
  | computed default patterns => exact TypePattern.firstMatch_congr h

namespace InstallState

/-! ## Choosing a plugin -/

/-- States that answer a query alike agree on it. -/
theorem AgreesOn.of_ask_eq {q : Query} (h : s.ask q = s'.ask q) : s.AgreesOn s' q := by
  have hsame : ∀ v : Option Version, Option.Rel (fun v w => v.same w = true) v v := by
    intro v
    cases v with
    | none => exact .none
    | some v => exact .some (Version.same_iff_padded_eq.mpr rfl)
  rw [AgreesOn, h]
  cases q with
  | gameVersion | managerVersion => exact hsame _
  | flag | file | verdict => rfl

/-- A plugin that has been chosen leaves everything but its flags. -/
theorem choose_agreesOn {plugin : Plugin} {q : Query}
    (h : ∀ f ∈ plugin.flags, q ≠ .flag f.name) : (s.choose plugin).AgreesOn s q := by
  have hnames : ¬ (Change.choose plugin).Names q := by
    cases q with
    | flag name =>
        rintro ⟨f, hf, rfl⟩
        exact h f hf rfl
    | gameVersion | managerVersion | file | verdict => exact id
  refine .of_ask_eq ((ask_apply (.choose plugin) s q).trans ?_)
  rw [Change.writes_eq_nil hnames]
  rfl

/-- A requirement that names none of the flags of a plugin is judged as before
    when the plugin has been chosen. -/
theorem evaluate_choose {plugin : Plugin} {r : Requirement}
    (h : ∀ f ∈ plugin.flags, ¬ r.Mentions (.flag f.name)) :
    r.evaluate (s.choose plugin).facts = r.evaluate s.facts := by
  refine r.evaluate_congr fun q hq => choose_agreesOn fun f hf hflag => ?_
  exact h f hf (hflag ▸ hq)

/-- **Evaluation reads only what is mentioned.**  Two states that agree on
    what the atoms of a requirement ask give it the same truth or the same
    failure, versions agreeing when they are the same up to zeros at their end.
    So in every state a plugin may be chosen, and the type of a plugin and
    whether conditional files apply stay as they were, where their conditions
    name none of the flags that the chosen plugin sets. -/
theorem evaluation_reads_mentioned :
    (∀ (r : Requirement) (s s' : InstallState), (∀ q, r.Mentions q → s.AgreesOn s' q) →
      r.evaluate s.facts = r.evaluate s'.facts) ∧
    (∀ (s : InstallState) (chosen plugin : Plugin),
      (∀ f ∈ chosen.flags, ¬ plugin.typeRule.Mentions (.flag f.name)) →
      plugin.resolveType (s.choose chosen).facts = plugin.resolveType s.facts) ∧
    (∀ (s : InstallState) (chosen : Plugin) (c : ConditionalFiles),
      (∀ f ∈ chosen.flags, ¬ c.condition.Mentions (.flag f.name)) →
      c.applies (s.choose chosen).facts = c.applies s.facts) := by
  refine ⟨fun r s s' h => r.evaluate_congr h, ?_, fun s chosen c h => evaluate_choose h⟩
  intro s chosen plugin h
  refine TypeRule.resolve_congr fun p hp => evaluate_choose fun f hf hmention => ?_
  exact h f hf ⟨p, hp, hmention⟩

/-- A plugin that is usable where game and flag are as its pattern asks. -/
def patched : Plugin where
  name        := "P"
  description := ""
  typeRule    := .computed .notUsable
    [⟨.optional, ⟨.all, [.atom (.gameVersion ⟨[1, 5]⟩), .atom (.flag "F" "On")]⟩⟩]

/-- A plugin that sets a flag of its own, named like the one above in lower
    case. -/
def lowerFlagged : Plugin where
  name        := "Q"
  description := ""
  typeRule    := .fixed .optional
  flags       := [⟨"f", "Off"⟩]

/-- A state with a game of this version and the flag set. -/
def playing (game : List UInt32) : InstallState :=
  { empty.setFlag "F" "On" with gameVersion := some ⟨game⟩ }

/-- Neither the zero at the end of a version nor a flag that is not mentioned
    changes what is judged. -/
theorem evaluation_reads_mentioned_unseen :
    (∀ p ∈ patched.typeRule.patterns,
      p.condition.evaluate (playing [1, 5]).facts
        = p.condition.evaluate ((playing [1, 5, 0]).setFlag "G" "On").facts) ∧
    ∀ s : InstallState,
      patched.resolveType (s.choose lowerFlagged).facts = patched.resolveType s.facts := by
  obtain ⟨hagree, hchoose, -⟩ := evaluation_reads_mentioned
  have hatoms : ∀ p ∈ patched.typeRule.patterns,
      p.condition.atoms = [.gameVersion ⟨[1, 5]⟩, .flag "F" "On"] := by
    intro p hp
    obtain rfl := List.mem_singleton.mp hp
    rfl
  refine ⟨fun p hp => hagree _ _ _ ?_, fun s => hchoose s lowerFlagged patched ?_⟩
  · rintro q ⟨t, ht, rfl⟩
    rw [hatoms p hp] at ht
    rcases List.mem_pair.mp ht with rfl | rfl
    · exact .some (by decide)
    · rfl
  · rintro f hf ⟨p, hp, t, ht, hquery⟩
    obtain rfl := List.mem_singleton.mp hf
    rw [hatoms p hp] at ht
    rcases List.mem_pair.mp ht with rfl | rfl
    · exact nomatch hquery
    · exact absurd (Query.flag.inj hquery) (by decide)

end InstallState

end ModInstall
