import Mathlib.Data.List.Forall2
import ModInstall.Condition.Evaluation

/-! # Conditions as trees

    A condition is a tree whose groups hold lists of members, so plain
    induction does not reach the members.  `inductMembers` does: a group may
    assume the statement of every member.  Beside it stand the two views of a
    condition that theorems compare it with: its atoms from left to right, and
    its depth as a bound that every member keeps; and what carries two
    evaluations of members over to their groups. -/

namespace ModInstall.Condition

/-- Induction on conditions, members of groups included. -/
@[elab_as_elim, induction_eliminator]
theorem inductMembers {motive : Condition → Prop}
    (atom : ∀ p, motive (.atom p))
    (group : ∀ o cs, (∀ c ∈ cs, motive c) → motive (.group o cs)) :
    ∀ c, motive c
  | .atom p => atom p
  | .group o cs => group o cs fun c _ => inductMembers atom group c

mutual

/-- The atoms of a condition, from left to right. -/
def atoms : Condition → List Predicate
  | .atom p => [p]
  | .group _ cs => atomsList cs

/-- The atoms of some conditions, from left to right. -/
def atomsList : List Condition → List Predicate
  | [] => []
  | c :: cs => atoms c ++ atomsList cs

end

/-- The atoms of a list are those of its members. -/
theorem mem_atomsList {p : Predicate} {cs : List Condition} :
    p ∈ atomsList cs ↔ ∃ c ∈ cs, p ∈ c.atoms := by
  induction cs with
  | nil => simp [atomsList]
  | cons c cs ih => simp [atomsList, ih]

/-- A list is as deep as its deepest member. -/
theorem depthList_le_iff {n : Nat} {cs : List Condition} :
    depthList cs ≤ n ↔ ∀ c ∈ cs, c.depth ≤ n := by
  induction cs with
  | nil => simp [depthList]
  | cons c cs ih => rw [depthList, Nat.max_le, ih, List.forall_mem_cons]

/-- Conditions that stand at some level stay within a bound when each of them
    does. -/
theorem add_depthList_le_iff {level n : Nat} (h : level ≤ n) {cs : List Condition} :
    level + depthList cs ≤ n ↔ ∀ c ∈ cs, level + c.depth ≤ n := by
  have hroom : ∀ m, level + m ≤ n ↔ m ≤ n - level := by
    intro m
    omega
  simp only [hroom, depthList_le_iff]

/-- Members that are evaluated alike, each to what the other one in its place
    is, are evaluated alike together. -/
theorem evaluateList_congr {facts facts' : Facts} {level : Nat} {cs cs' : List Condition}
    (h : List.Forall₂ (fun c c' => c.evaluateAt facts level = c'.evaluateAt facts' level) cs cs') :
    evaluateList facts level cs = evaluateList facts' level cs' := by
  induction h with
  | nil => rfl
  | cons hc _ ih => rw [evaluateList, evaluateList, hc, ih]

end ModInstall.Condition

namespace ModInstall.Requirement

/-- The atoms of a requirement, from left to right. -/
def atoms (r : Requirement) : List Predicate :=
  r.toCondition.atoms

end ModInstall.Requirement
