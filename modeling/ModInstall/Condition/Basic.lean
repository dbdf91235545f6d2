import ModInstall.Condition.Predicate

/-! # Conditions

    A condition is a tree: predicates at the leaves, and groups that ask for
    all or for some of their members.  An empty group of all holds, an empty
    group of some does not.  A `Requirement` is a condition that is a group at
    its root, which is what packages write.

    A condition never holds any state.  It is built once and asked again
    whenever the state has changed. -/

namespace ModInstall

/-- How a group combines its members. -/
inductive Operator
  | all
  | some
deriving DecidableEq

namespace Operator

/-- The name of an operator. -/
def name : Operator → String
  | .all  => "And"
  | .some => "Or"

/-- The operator with a name. -/
def ofName? (text : String) : Option Operator :=
  [Operator.all, .some].find? (·.name == text)

/-- The word for an operator between two conditions. -/
def word : Operator → String
  | .all  => "AND"
  | .some => "OR"

/-- The truth of a group whose members have these truths. -/
def combine : Operator → List Bool → Bool
  | .all,  truths => truths.all id
  | .some, truths => truths.any id

end Operator

/-- A condition. -/
inductive Condition
  | atom (test : Predicate)
  | group (operator : Operator) (members : List Condition)

namespace Condition

mutual

/-- Equality of conditions is decided along the tree. -/
def decEq : (a b : Condition) → Decidable (a = b)
  | .atom p, .atom q =>
      if h : p = q then isTrue (by rw [h]) else isFalse fun e => h (Condition.atom.inj e)
  | .atom _, .group _ _ => isFalse fun e => nomatch e
  | .group _ _, .atom _ => isFalse fun e => nomatch e
  | .group o cs, .group o' cs' =>
      match decEqList cs cs' with
      | isFalse h => isFalse fun e => h (Condition.group.inj e).2
      | isTrue hc =>
          if h : o = o' then isTrue (by rw [h, hc])
          else isFalse fun e => h (Condition.group.inj e).1

/-- Equality of two lists of members. -/
def decEqList : (as bs : List Condition) → Decidable (as = bs)
  | [],      []      => isTrue rfl
  | [],      _ :: _  => isFalse fun e => nomatch e
  | _ :: _,  []      => isFalse fun e => nomatch e
  | a :: as, b :: bs =>
      match decEq a b, decEqList as bs with
      | isTrue h,  isTrue hs  => isTrue (by rw [h, hs])
      | isFalse h, _          => isFalse fun e => h (List.cons.inj e).1
      | _,         isFalse hs => isFalse fun e => hs (List.cons.inj e).2

end

instance : DecidableEq Condition := decEq

mutual

/-- How many groups lie above each other at most. -/
def depth : Condition → Nat
  | .atom _     => 0
  | .group _ cs => 1 + depthList cs

/-- The greatest depth among some conditions. -/
def depthList : List Condition → Nat
  | []      => 0
  | c :: cs => max (depth c) (depthList cs)

end

/-- The text of a group whose members have these texts. -/
def displayGroup (operator : Operator) (members : List String) : String :=
  if members.isEmpty then
    match operator with
    | .all  => "(true)"
    | .some => "(false)"
  else "(" ++ (" " ++ operator.word ++ " ").intercalate members ++ ")"

mutual

/-- The text of a condition. -/
def display : Condition → String
  | .atom p     => p.display
  | .group o cs => displayGroup o (displayList cs)

/-- The texts of some conditions. -/
def displayList : List Condition → List String
  | []      => []
  | c :: cs => display c :: displayList cs

end

end Condition

/-- A condition with a group at its root. -/
structure Requirement where
  operator : Operator
  members  : List Condition := []
deriving DecidableEq

namespace Requirement

/-- A requirement as a condition. -/
def toCondition (r : Requirement) : Condition :=
  .group r.operator r.members

/-- How many groups lie above each other at most, the root included. -/
def depth (r : Requirement) : Nat :=
  r.toCondition.depth

/-- The text of a requirement. -/
def display (r : Requirement) : String :=
  r.toCondition.display

/-- A requirement inside `n` groups of one member each. -/
def wrapped (operator : Operator) (r : Requirement) : Nat → Requirement
  | 0     => r
  | n + 1 => ⟨operator, [(wrapped operator r n).toCondition]⟩

end Requirement

end ModInstall
