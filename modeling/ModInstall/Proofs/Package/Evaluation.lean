import ModInstall.Proofs.Condition.Outcome
import ModInstall.Proofs.Package.ConditionGrammar
import ModInstall.Proofs.Package.Parts
import ModInstall.Proofs.Package.Patterns

/-! # Packages that are read can be evaluated

    Three limits have to fit together: how deep a document nests, how deep a
    reader lets conditions nest, and how deep the evaluator goes.  The reader's
    limit is the caller's to choose, so it proves nothing; it is the document
    that keeps conditions shallow enough.  And no grammar lets a condition ask
    the host, so the requirements of the package, which an extension may add
    to, are the only place where an evaluation can fail. -/

namespace ModInstall

open Markup (Element Document)

/-! ## What a document asks can be judged -/

/-- No atom of what mirrors an element asks the host. -/
theorem Grammar.Mirrors.foreign_not_mem {g : Grammar} {e : Element} {q : Requirement}
    (h : Mirrors g e q) (t : ForeignTest) : .foreign t ∉ q.atoms := by
  induction e generalizing q with
  | node e ih =>
      obtain ⟨-, hm⟩ := h
      intro ht
      obtain ⟨m, hmem, ht⟩ := Condition.mem_atomsList.mp ht
      obtain ⟨c, hc, hcm⟩ := exists_mem_left_of_forall₂ hm hmem
      cases hcm with
      | group _ hq => exact ih c hc hq ht
      | atom hp =>
          obtain rfl := List.mem_singleton.mp ht
          exact hp.ne_foreign

namespace Requirement

/-- A requirement that asks the host nothing and is not too deep has a truth,
    whatever the facts. -/
theorem exists_evaluate_eq_ok {q : Requirement} (hdepth : q.depth ≤ Condition.maxLevel)
    (hforeign : ∀ t, .foreign t ∉ q.atoms) (facts : Facts) :
    ∃ truth, q.evaluate facts = .ok truth := by
  have hnone : q.points.findSome? (Condition.Point.failure facts) = none :=
    (Condition.firstFailure_eq_none_iff (Nat.zero_le _)).mpr
      ⟨by rw [Nat.zero_add]; exact hdepth, fun t ht => absurd ht (hforeign t)⟩
  rw [evaluate_eq, hnone]
  exact ⟨_, rfl⟩

/-- A requirement without groups inside fails with the first of its atoms that
    fails. -/
theorem evaluate_atoms_eq_error_iff {o : Operator} {ps : List Predicate} {facts : Facts}
    {e : EvaluationError} :
    (Requirement.mk o (ps.map .atom)).evaluate facts = .error e ↔
      ps.findSome? (Predicate.failure facts) = some e := by
  have hlist : Condition.firstFailureList facts 1 (ps.map .atom)
      = ps.findSome? (Predicate.failure facts) := by
    induction ps with
    | nil => rfl
    | cons p ps ih =>
        rw [List.map_cons, Condition.firstFailureList_cons, ih, List.findSome?_cons,
          Condition.firstFailure_atom p (by decide)]
        cases p.failure facts <;> rfl
  rw [evaluate_eq]
  show (Condition.firstFailure facts 0 (.group o (ps.map .atom))).elim _ _ = _ ↔ _
  rw [Condition.firstFailure_group, if_neg (by decide), hlist]
  cases ps.findSome? (Predicate.failure facts) <;> simp

end Requirement

/-- Where all conditions have a truth, the patterns give a type. -/
theorem TypePattern.exists_firstMatch_eq_ok {facts : Facts} {default : PluginType}
    {ps : List TypePattern} (h : ∀ p ∈ ps, ∃ truth, p.condition.evaluate facts = .ok truth) :
    ∃ type, firstMatch facts default ps = .ok type := by
  induction ps with
  | nil => exact ⟨default, rfl⟩
  | cons p ps ih =>
      obtain ⟨truth, ht⟩ := h p (List.mem_cons_self ..)
      cases truth with
      | true => exact ⟨p.type, firstMatch_cons_of_true ht⟩
      | false =>
          rw [firstMatch_cons_of_false ht]
          exact ih fun p hp => h p (List.mem_cons_of_mem _ hp)

namespace Reader

variable {r : Reader} {d : Document} {p : Package}

/-- What was read from a shallow element has a truth, whatever the facts and
    the limit of the reader. -/
theorem exists_evaluate_eq_ok {e : Element} {q : Requirement} (h : r.requirement e = .ok q)
    (he : e.nesting ≤ Condition.maxLevel) (facts : Facts) :
    ∃ truth, q.evaluate facts = .ok truth := by
  obtain ⟨hm, -⟩ := requirement_eq_ok_iff.mp h
  refine q.exists_evaluate_eq_ok ?_ hm.foreign_not_mem facts
  rw [hm.depth_eq]
  exact Nat.le_trans (Grammar.groupLevels_le_nesting e) he

/-! ## Requirements of the whole package -/

/-- Whether a node is one that only the host can answer and has not: the
    grammar does not know it, the extension takes it, and the state has no
    verdict on its kind. -/
def unanswered (r : Reader) (s : InstallState) (n : Element) : Bool :=
  (r.grammar.packageForm? n.name).isNone && (r.extension n).isSome &&
    (s.verdict n.name).isNone

/-- What a form of the grammar gives does not ask the host. -/
theorem packagePredicate_failure {n : Element} {form : PackageForm} {q : Predicate}
    (h : packagePredicate n form = .ok q) (facts : Facts) : q.failure facts = none := by
  cases form with
  | file =>
      obtain ⟨file, -, hq⟩ := bind_eq_ok_iff.mp h
      obtain rfl := pure_eq_ok_iff.mp hq
      rfl
  | gameVersion | managerVersion =>
      obtain ⟨v, -, rfl⟩ := map_eq_ok_iff.mp h
      rfl

section

-- the extension takes nothing, or passes on the nodes of some kinds
variable (hx : r.extension = Extension.declining ∨ ∃ kinds, r.extension = Extension.accepting kinds)
include hx

/-- An extension that passes nodes through makes tests of their own name of
    the nodes that it takes. -/
theorem extension_eq_some {n : Element} {q : Predicate} (h : r.extension n = some q) :
    q = .foreign (Extension.testOf n) := by
  rcases hx with hx | ⟨kinds, hx⟩
  · rw [hx] at h
    exact nomatch h
  · rw [hx, Extension.accepting] at h
    split at h
    · exact (Option.some.inj h).symm
    · exact nomatch h

/-- A requirement of the package fails exactly when its node is unanswered. -/
theorem packageRequirement_failure {n : Element} {q : Predicate}
    (h : r.packageRequirement n = .ok q) (s : InstallState) :
    q.failure s.facts = if r.unanswered s n then some (.unresolved n.name) else none := by
  rw [packageRequirement] at h
  cases hf : r.grammar.packageForm? n.name with
  | some form =>
      rw [hf] at h
      rw [packagePredicate_failure h, unanswered, hf]
      rfl
  | none =>
      -- the grammar does not know the node, so the extension has taken it
      rw [hf] at h
      cases hn : r.extension n with
      | none =>
          rw [hn] at h
          exact nomatch h
      | some q' =>
          rw [hn] at h
          obtain rfl := Except.ok.inj h
          obtain rfl := extension_eq_some hx hn
          simp only [unanswered, hf, hn, Option.isNone_none, Option.isSome_some, Bool.true_and]
          rfl

/-- The requirements of a package fail with the kind of its first unanswered
    node, and in no other way. -/
theorem packageRequirements_evaluate_eq_error_iff {q : Requirement}
    (h : r.packageRequirements d = .ok q) (s : InstallState) {e : EvaluationError} :
    q.evaluate s.facts = .error e ↔
      ∃ n, (d.select "/config/moduleDependencies/*").find? (r.unanswered s) = some n ∧
        e = .unresolved n.name := by
  obtain ⟨ps, hps, hq⟩ := bind_eq_ok_iff.mp h
  obtain rfl := pure_eq_ok_iff.mp hq
  rw [Requirement.evaluate_atoms_eq_error_iff]
  -- nodes and predicates are walked in step and stop at the same place
  have hstep : ∀ {ns : List Element} {ps : List Predicate},
      List.Forall₂ (fun n p => r.packageRequirement n = .ok p) ns ps →
        ps.findSome? (Predicate.failure s.facts)
          = (ns.find? (r.unanswered s)).map fun n => .unresolved n.name := by
    intro ns ps hall
    induction hall with
    | nil => rfl
    | @cons n p ns ps hp _ ih =>
        rw [List.findSome?_cons, packageRequirement_failure hx hp s, List.find?_cons, ih]
        cases r.unanswered s n <;> rfl
  rw [hstep (mapM_eq_ok_iff.mp hps), Option.map_eq_some_iff]
  simp only [eq_comm]

end

/-- **A package that was read from a document can be evaluated in any state.**
    Every plugin has a type, every pattern of conditional files has a truth
    and so do all of them together, whatever the reader lets conditions nest.
    The requirements of the package fail only for want of a verdict, on the
    first node that the extension took and the state is silent about; nothing
    fails for being too deep. -/
theorem package_evaluates {source : String}
    (hd : Document.parse Document.defaultDepthLimit source = .ok d)
    (hx : r.extension = Extension.declining ∨ ∃ kinds, r.extension = Extension.accepting kinds)
    (hp : r.package d = .ok p) (s : InstallState) :
    (∀ plugin ∈ p.plugins, ∃ type, plugin.resolveType s.facts = .ok type) ∧
    (∀ c ∈ p.conditionalFiles, ∃ truth, c.applies s.facts = .ok truth) ∧
    (∃ files, ConditionalFiles.select s.facts p.conditionalFiles = .ok files) ∧
    (∀ e, p.requirements.evaluate s.facts = .error e ↔
      ∃ n, (d.select "/config/moduleDependencies/*").find? (r.unanswered s) = some n ∧
        e = .unresolved n.name) := by
  -- the limit of documents and that of evaluation are the same number
  have hroot : d.root.nesting ≤ Condition.maxLevel := Document.nesting_le_of_parse hd
  have hfiles : ∀ c ∈ p.conditionalFiles, ∃ truth, c.applies s.facts = .ok truth := by
    intro c hc
    obtain ⟨e, he, hq⟩ := exists_element_of_conditionalFiles hp hc
    exact exists_evaluate_eq_ok hq (Nat.le_trans he hroot) s.facts
  refine ⟨?_, hfiles, ⟨_, ConditionalFiles.select_eq_ok_iff.mpr ⟨hfiles, rfl⟩⟩, ?_⟩
  · intro plugin hplugin
    show ∃ type, plugin.typeRule.resolve s.facts = .ok type
    cases hrule : plugin.typeRule with
    | fixed type => exact ⟨type, rfl⟩
    | computed default patterns =>
        refine TypePattern.exists_firstMatch_eq_ok fun t ht => ?_
        have hmem : t ∈ p.typePatterns :=
          List.mem_flatMap.mpr ⟨plugin, hplugin, by rw [hrule]; exact ht⟩
        obtain ⟨e, he, hq⟩ := exists_element_of_typePattern hp hmem
        exact exists_evaluate_eq_ok hq (Nat.le_trans he hroot) s.facts
  · intro e
    obtain ⟨-, -, -, hreq, -⟩ := package_eq_ok_iff.mp hp
    exact packageRequirements_evaluate_eq_error_iff hx hreq s

/-- A host that is asked and stays silent fails the requirements of the
    package. -/
theorem package_evaluates_silent_host :
    ∃ source d p, Document.parse Document.defaultDepthLimit source = .ok d ∧
      Reader.package ⟨.v3, { maxConditionDepth := 1000 }, Extension.accepting ["host"],
        Image.Loader.pathOnly⟩ d = .ok p ∧
      p.requirements.evaluate InstallState.empty.facts = .error (.unresolved "host") := by
  obtain ⟨root, hroot⟩ : ∃ root : Element, root = { name := "config", children := [
      { name := "moduleName", innerXml := some "" },
      { name := "moduleDependencies", children := [{ name := "host", innerXml := some "" }] }] } :=
    ⟨_, rfl⟩
  have hd : Document.parse Document.defaultDepthLimit
      "<config><moduleName/><moduleDependencies><host/></moduleDependencies></config>"
        = .ok ⟨root⟩ := by
    rw [hroot]
    decide +kernel
  have hp : Reader.package ⟨.v3, { maxConditionDepth := 1000 }, Extension.accepting ["host"],
      Image.Loader.pathOnly⟩ ⟨root⟩ = .ok
        { version := "3.0", name := "",
          requirements := ⟨.all, [.atom (.foreign ⟨"host", [], ""⟩)]⟩ } := by
    rw [hroot]
    decide +kernel
  obtain ⟨-, -, -, hreq⟩ := package_evaluates hd (Or.inr ⟨_, rfl⟩) hp InstallState.empty
  refine ⟨_, _, _, hd, hp, (hreq _).mpr ?_⟩
  rw [hroot]
  exact ⟨{ name := "host", innerXml := some "" }, by decide +kernel, rfl⟩

end Reader

end ModInstall
