import ModInstall.Condition.Basic

/-! # Evaluation

    `Facts` are the answers that a state gives to predicates.
    `Condition.evaluate` asks every member of every group, in order, and never
    stops early at a truth that settles the group: a member that cannot be
    evaluated fails the whole condition wherever it stands, and the first such
    member is the one reported.

    There are two ways to fail: a foreign test to which the host gave no
    verdict, and a group below the level `maxLevel`, the root being level 1. -/

namespace ModInstall

/-- What a state of installation says about the atoms of conditions. -/
structure Facts where
  gameVersion    : Option Version
  managerVersion : Option Version
  fileState      : String → FileState
  flagValue      : String → Option String
  verdict        : ForeignTest → Option Bool

/-- The facts of a host that knows nothing: no versions, no files, no flags, no
    verdicts. -/
def Facts.unknown : Facts where
  gameVersion    := none
  managerVersion := none
  fileState _    := .missing
  flagValue _    := none
  verdict _      := none

/-- Why a condition has no truth. -/
inductive EvaluationError
  /-- The host gave no verdict on a foreign test of this kind. -/
  | unresolved (kind : String)
  /-- Groups nest more than `limit` levels. -/
  | tooDeep (limit : Nat)
deriving DecidableEq

/-- The wording of a failed evaluation. -/
def EvaluationError.message : EvaluationError → String
  | .unresolved kind => "No extension could evaluate the '" ++ kind ++ "' condition"
  | .tooDeep limit   =>
      "Condition nesting exceeds the limit of " ++ Nat.repr limit ++ " levels"

/-- Whether a version is known and at least the one asked for. -/
def reaches (installed : Option Version) (wanted : Version) : Bool :=
  installed.any (·.atLeast wanted)

/-- The truth of a predicate under some facts. -/
def Predicate.evaluate (facts : Facts) : Predicate → Except EvaluationError Bool
  | .gameVersion wanted    => .ok (reaches facts.gameVersion wanted)
  | .managerVersion wanted => .ok (reaches facts.managerVersion wanted)
  | .file name state       => .ok (facts.fileState name == state)
  | .flag name value       => .ok (facts.flagValue name == some value)
  | .foreign test          =>
      match facts.verdict test with
      | some truth => .ok truth
      | none       => .error (.unresolved test.kind)

namespace Condition

/-- The level of the deepest group that is evaluated. -/
def maxLevel : Nat := 256

mutual

/-- The truth of a condition whose root would be a group at `level`. -/
def evaluateAt (facts : Facts) (level : Nat) : Condition → Except EvaluationError Bool
  | .atom p     => p.evaluate facts
  | .group o cs =>
      if maxLevel < level then .error (.tooDeep maxLevel)
      else (evaluateList facts (level + 1) cs).map o.combine

/-- The truths of some conditions, up to the first that has none. -/
def evaluateList (facts : Facts) (level : Nat) : List Condition → Except EvaluationError (List Bool)
  | []      => .ok []
  | c :: cs => do
      let truth ← evaluateAt facts level c
      let truths ← evaluateList facts level cs
      return truth :: truths

end

/-- The truth of a condition under some facts. -/
def evaluate (facts : Facts) (c : Condition) : Except EvaluationError Bool :=
  c.evaluateAt facts 1

end Condition

/-- The truth of a requirement under some facts. -/
def Requirement.evaluate (facts : Facts) (r : Requirement) : Except EvaluationError Bool :=
  r.toCondition.evaluate facts

end ModInstall
