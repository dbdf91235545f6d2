import ModInstall.Proofs.Package.Comparison

/-! # What a host adds to a package

    A host may register kinds of nodes that no grammar knows, and the reader
    keeps such nodes as tests for the host to answer.  It does so at one place
    only, among the requirements of the whole package, and only where the
    grammar has no form of its own.  `Hosted` says what becomes of one node;
    the requirements are the nodes one by one, up to the first that fails.

    Registering more kinds therefore fills gaps and changes nothing else: what
    was read before is read to the same package. -/

namespace ModInstall

open Markup (Element Document)

/-- What becomes of a node among the requirements of a package, where a host
    has registered some kinds.  Where the grammar knows the node, the host is
    not asked. -/
inductive Hosted (g : Grammar) (kinds : List String) (e : Element) :
    Except ConfigError Predicate → Prop
  | known {form : PackageForm} :
      g.packageForm? e.name = some form → Hosted g kinds e (Reader.packagePredicate e form)
  | registered :
      g.packageForm? e.name = none → e.name ∈ kinds →
      Hosted g kinds e (.ok (.foreign ⟨e.name, e.attributes, e.text⟩))
  | refused :
      g.packageForm? e.name = none → e.name ∉ kinds →
      Hosted g kinds e (.error (.unknownNode e.name))

/-- Something becomes of every node. -/
theorem exists_hosted (g : Grammar) (kinds : List String) (e : Element) :
    ∃ x, Hosted g kinds e x := by
  cases hf : g.packageForm? e.name with
  | some form => exact ⟨_, .known hf⟩
  | none =>
      by_cases hk : e.name ∈ kinds
      · exact ⟨_, .registered hf hk⟩
      · exact ⟨_, .refused hf hk⟩

namespace Reader

variable {r : Reader} {d : Document} {e : Element} {kinds kinds' : List String}

/-- The reader for a host that has registered some kinds. -/
def hosting (r : Reader) (kinds : List String) : Reader :=
  { r with extension := .accepting kinds }

@[simp] theorem hosting_grammar : (r.hosting kinds).grammar = r.grammar := rfl

@[simp] theorem hosting_extension : (r.hosting kinds).extension = .accepting kinds := rfl

/-! ## One node -/

/-- What becomes of a node is what it is read to. -/
theorem packageRequirement_of_hosted {x : Except ConfigError Predicate}
    (h : Hosted r.grammar kinds e x) : (r.hosting kinds).packageRequirement e = x := by
  simp only [packageRequirement, hosting_grammar, hosting_extension, Extension.accepting]
  cases h with
  | known hf => rw [hf]
  | registered hf hk =>
      rw [hf, if_pos hk]
      rfl
  | refused hf hk => rw [hf, if_neg hk]

/-- **One node is read as hosting says**, and to nothing else. -/
theorem packageRequirement_hosting {x : Except ConfigError Predicate} :
    (r.hosting kinds).packageRequirement e = x ↔ Hosted r.grammar kinds e x := by
  constructor
  · rintro rfl
    obtain ⟨x, hx⟩ := exists_hosted r.grammar kinds e
    rwa [packageRequirement_of_hosted hx]
  · exact packageRequirement_of_hosted

/-! ## All nodes -/

/-- The requirements are read exactly when every node is, each in its place. -/
theorem packageRequirements_hosting_ok {q : Requirement} :
    (r.hosting kinds).packageRequirements d = .ok q ↔ q.operator = .all ∧
      List.Forall₂ (fun e c => ∃ p, c = .atom p ∧ Hosted r.grammar kinds e (.ok p))
        (d.select "/config/moduleDependencies/*") q.members := by
  simp only [packageRequirements_eq_ok_iff_each, packageRequirement_hosting]

/-- They fail exactly with the first node that fails. -/
theorem packageRequirements_hosting_error {fault : ConfigError} :
    (r.hosting kinds).packageRequirements d = .error fault ↔
      ∃ before e after, d.select "/config/moduleDependencies/*" = before ++ e :: after ∧
        (∀ c ∈ before, ∃ p, Hosted r.grammar kinds c (.ok p)) ∧
        Hosted r.grammar kinds e (.error fault) := by
  simp only [packageRequirements, bind_eq_error_iff, pure_ne_error, and_false, exists_false,
    or_false, mapM_eq_error_iff, packageRequirement_hosting]

/-! ## Two hosts -/

/-- The host is asked about requirements of the package only. -/
theorem hosting_agrees (fault : ConfigError → Prop) (r : Reader) (kinds kinds' : List String) :
    AgreesBut fault id (r.hosting kinds) (r.hosting kinds') :=
  .of_grammar rfl rfl (Or.inl rfl) fun _ => rfl

/-- No group asks the host. -/
theorem groups_hosting (r : Reader) (kinds kinds' : List String) (d : Document) :
    (r.hosting kinds).groups d = (r.hosting kinds').groups d := by
  have hsame := (hosting_agrees (fun _ => False) r kinds kinds').groups d
  have hid : (List.map (·.mapDescriptions id) : List PluginGroup → _) = id := by
    simp
  rw [hid, Except.map_id] at hsame
  exact hsame.eq

/-- No pattern for files asks the host. -/
theorem conditionalFiles_hosting (r : Reader) (kinds kinds' : List String) (d : Document) :
    (r.hosting kinds).conditionalFiles d = (r.hosting kinds').conditionalFiles d :=
  ((hosting_agrees (fun _ => False) r kinds kinds').conditionalFiles d).eq

/-- One host has no use for a node that the other one has registered. -/
def Missed (kinds kinds' : List String) (fault : ConfigError) : Prop :=
  ∃ kind ∈ kinds', kind ∉ kinds ∧ fault = .unknownNode kind

/-- More kinds fill gaps and change no other node. -/
theorem packageRequirement_hosting_mono (r : Reader) (h : kinds ⊆ kinds') (e : Element) :
    SameUnless (Missed kinds kinds') ((r.hosting kinds).packageRequirement e)
      ((r.hosting kinds').packageRequirement e) := by
  obtain ⟨x, hx⟩ := exists_hosted r.grammar kinds e
  rw [packageRequirement_of_hosted hx]
  cases hx with
  | known hf =>
      rw [packageRequirement_of_hosted (.known hf)]
      exact .refl _
  | registered hf hk =>
      rw [packageRequirement_of_hosted (.registered hf (h hk))]
      exact .refl _
  | refused hf hk =>
      by_cases hk' : e.name ∈ kinds'
      · exact .error ⟨_, hk', hk, rfl⟩ _
      · rw [packageRequirement_of_hosted (.refused hf hk')]
        exact .refl _

/-- A package that is read is read to the same when the host accepts more
    kinds. -/
theorem package_hosting_mono (r : Reader) (h : kinds ⊆ kinds') (d : Document) :
    SameUnless (Missed kinds kinds') ((r.hosting kinds).package d)
      ((r.hosting kinds').package d) :=
  (hosting_agrees _ r kinds kinds').package_eq (packageRequirement_hosting_mono r h) rfl d

/-! ## Hosts and packages -/

/-- **The host only fills gaps, at the requirements of the package.**  With more
    kinds registered, what was read is read to the same package, and what
    failed fails alike unless it was for a node of one of the new kinds.  The
    requirements are the nodes one by one: those that the grammar knows as the
    grammar reads them, registered or not, and of the others the registered
    ones as tests that carry the whole node.  The first node that is neither,
    or cannot be read, decides the failure.  Groups and conditional files are
    the same for all hosts; required files are read without one. -/
theorem package_hosting (r : Reader) (d : Document) :
    (∀ kinds kinds', kinds ⊆ kinds' →
      (∀ p, (r.hosting kinds).package d = .ok p → (r.hosting kinds').package d = .ok p) ∧
      ∀ fault, (r.hosting kinds).package d = .error fault →
        (∀ kind ∈ kinds', kind ∉ kinds → fault ≠ .unknownNode kind) →
        (r.hosting kinds').package d = .error fault) ∧
    (∀ kinds q, (r.hosting kinds).packageRequirements d = .ok q ↔ q.operator = .all ∧
      List.Forall₂ (fun e c => ∃ p, c = .atom p ∧ Hosted r.grammar kinds e (.ok p))
        (d.select "/config/moduleDependencies/*") q.members) ∧
    (∀ kinds fault, (r.hosting kinds).packageRequirements d = .error fault ↔
      ∃ before e after, d.select "/config/moduleDependencies/*" = before ++ e :: after ∧
        (∀ c ∈ before, ∃ p, Hosted r.grammar kinds c (.ok p)) ∧
        Hosted r.grammar kinds e (.error fault)) ∧
    ∀ kinds kinds', (r.hosting kinds).groups d = (r.hosting kinds').groups d ∧
      (r.hosting kinds).conditionalFiles d = (r.hosting kinds').conditionalFiles d := by
  refine ⟨fun kinds kinds' h => ⟨fun p hp => ?_, fun fault hf hnew => ?_⟩,
    fun kinds q => packageRequirements_hosting_ok,
    fun kinds fault => packageRequirements_hosting_error,
    fun kinds kinds' =>
      ⟨groups_hosting r kinds kinds' d, conditionalFiles_hosting r kinds kinds' d⟩⟩
  · have hsame := package_hosting_mono r h d
    rw [hp] at hsame
    exact hsame.eq_ok
  · have hsame := package_hosting_mono r h d
    rw [hf] at hsame
    refine hsame.eq_error ?_
    rintro ⟨kind, hk', hk, he⟩
    exact hnew kind hk' hk he

/-- A node that no grammar knows. -/
def extenderNode : Element where
  name       := "foseDependency"
  attributes := [("version", "1.2"), ("version", "1.3")]
  text       := "any"

/-- A node that every grammar knows. -/
def fileNode : Element where
  name       := "fileDependency"
  attributes := [("file", "A.esm")]

/-- A document that requires one after the other. -/
def extended : Document where
  root := {
    name := "config"
    children := [
      { name := "moduleName", text := "M" },
      { name := "moduleDependencies", children := [fileNode, extenderNode] }] }

/-- The package in such a document. -/
def extendedPackage : Package where
  version      := "2.0"
  name         := "M"
  requirements := ⟨.all, [.atom (.file "a.esm" .active),
    .atom (.foreign ⟨"foseDependency", [("version", "1.2"), ("version", "1.3")], "any"⟩)]⟩

/-- The node that no grammar knows is kept in its place once it is registered,
    and refused otherwise; to register the other one as well makes no
    difference. -/
theorem package_hosting_extended :
    ((Reader.mk .v2 {} .declining .pathOnly).hosting ["fileDependency", "foseDependency"]).package
      extended = .ok extendedPackage ∧
    ((Reader.mk .v2 {} .declining .pathOnly).hosting ["fileDependency"]).packageRequirements
      extended = .error (.unknownNode "foseDependency") := by
  have hread : ((Reader.mk .v2 {} .declining .pathOnly).hosting ["foseDependency"]).package
      extended = .ok extendedPackage :=
    rfl
  obtain ⟨hmore, -, hfails, -⟩ := package_hosting (.mk .v2 {} .declining .pathOnly) extended
  refine ⟨(hmore _ _ (by decide)).1 _ hread, (hfails _ _).mpr ?_⟩
  refine ⟨[fileNode], extenderNode, [], rfl, ?_, .refused (by decide) (by decide)⟩
  have hform : Grammar.v2.packageForm? fileNode.name = some .file := by decide
  exact List.forall_mem_singleton.mpr ⟨.file "a.esm" .active, .known hform⟩

end Reader

end ModInstall
