import ModInstall.Proofs.Package.Evaluation
import ModInstall.Proofs.Package.Json

/-! # What was read, written and read again

    Whatever a reader gives is canonical: file names have been put in lower
    case, versions come from texts, and images are paths.  So a package comes
    back from its text whenever the text can be read at all, and the one thing
    that keeps it from being read is its nesting.  A reader of texts enters 127
    levels, a condition takes two levels for each group, and the groups of a
    condition may nest 64 deep by default: the two limits do not fit, and
    `FitsText` is where the line runs. -/

namespace ModInstall

open Markup (Element Document)
open Json (Decoder)

/-! ## Readers give canonical packages -/

/-- What is asked for is canonical: file names are put in lower case, and
    versions are read from texts. -/
theorem Grammar.Asks.canonical {g : Grammar} {e : Element} {p : Predicate} (h : Asks g e p) :
    p.Canonical := by
  cases h with
  | file _ _ _ => exact ⟨trivial, congrArg (Predicate.file · _) (Text.lowercase_lowercase _)⟩
  | flag _ _ _ _ => exact ⟨trivial, rfl⟩
  | gameVersion _ _ _ hv => exact ⟨Version.components_ne_nil_of_parse? hv, rfl⟩
  | managerVersion _ _ _ hv => exact ⟨Version.components_ne_nil_of_parse? hv, rfl⟩

/-- A condition that mirrors a group is made of canonical atoms. -/
theorem Grammar.Mirrors.canonical {g : Grammar} {e : Element} {q : Requirement}
    (h : Mirrors g e q) : q.Canonical := by
  induction e generalizing q with
  | node e ih =>
      obtain ⟨-, hm⟩ := h
      intro p hp
      obtain ⟨m, hmem, hp⟩ := Condition.mem_atomsList.mp hp
      obtain ⟨c, hc, hcm⟩ := exists_mem_left_of_forall₂ hm hmem
      cases hcm with
      | group _ hq => exact ih c hc hq p hp
      | atom ha =>
          obtain rfl := List.mem_singleton.mp hp
          exact ha.canonical

namespace Reader

variable {r : Reader} {d : Document} {p : Package}

/-- Whatever condition is read is canonical. -/
theorem requirement_canonical {e : Element} {q : Requirement} (h : r.requirement e = .ok q) :
    q.Canonical :=
  (requirement_eq_ok_iff.mp h).1.canonical

/-- A loader that keeps the path alone keeps no bytes. -/
theorem image_bytes (himages : r.images = Image.Loader.pathOnly) {e? : Option Element}
    {i? : Option Image} (h : r.imageOf? e? = .ok i?) : ∀ i ∈ i?, i.bytes = none := by
  cases e? with
  | none =>
      obtain rfl := Except.ok.inj h
      exact fun i hi => nomatch hi
  | some e =>
      obtain ⟨i, hi, rfl⟩ := map_eq_ok_iff.mp h
      simp only [image, bind_eq_ok_iff, himages] at hi
      obtain ⟨path, -, hi⟩ := hi
      obtain rfl := Except.ok.inj hi
      rintro i hi
      obtain rfl := Option.some.inj hi
      rfl

section

variable (hx : r.extension = Extension.declining ∨ ∃ kinds, r.extension = Extension.accepting kinds)
include hx

/-- Whatever requirement of the package is read is canonical. -/
theorem packageRequirement_canonical {n : Element} {q : Predicate}
    (h : r.packageRequirement n = .ok q) : q.Canonical := by
  rw [packageRequirement] at h
  cases hf : r.grammar.packageForm? n.name with
  | some form =>
      rw [hf] at h
      cases form with
      | file =>
          obtain ⟨file, -, hq⟩ := bind_eq_ok_iff.mp h
          obtain rfl := pure_eq_ok_iff.mp hq
          exact ⟨trivial, congrArg (Predicate.file · _) (Text.lowercase_lowercase _)⟩
      | gameVersion | managerVersion =>
          obtain ⟨v, hv, rfl⟩ := map_eq_ok_iff.mp h
          obtain ⟨text, -, hparse⟩ := requireVersion_eq_ok_iff.mp hv
          exact ⟨Version.components_ne_nil_of_parse? hparse, rfl⟩
  | none =>
      rw [hf] at h
      cases hn : r.extension n with
      | none => simp [hn] at h
      | some q' =>
          rw [hn] at h
          obtain rfl := Except.ok.inj h
          rw [extension_eq_some hx hn]
          exact ⟨trivial, rfl⟩

/-- The requirements of a package are canonical, and nest only as deep as a
    list of atoms does. -/
theorem packageRequirements_canonical {q : Requirement} (h : r.packageRequirements d = .ok q) :
    q.Canonical ∧ q.toJson.nesting ≤ 5 := by
  obtain ⟨ps, hps, hq⟩ := bind_eq_ok_iff.mp h
  obtain rfl := pure_eq_ok_iff.mp hq
  constructor
  · intro p hp
    obtain ⟨m, hm, hp⟩ := Condition.mem_atomsList.mp hp
    obtain ⟨p', hp', rfl⟩ := List.mem_map.mp hm
    obtain rfl := List.mem_singleton.mp hp
    obtain ⟨n, -, hn⟩ := exists_mem_of_mapM hps hp'
    exact packageRequirement_canonical hx hn
  · have hmembers : Json.nestingItems (Condition.toJsonList (ps.map .atom)) ≤ 3 := by
      refine Condition.nestingItems_toJsonList_le_iff.mpr fun c hc => ?_
      obtain ⟨p, -, rfl⟩ := List.mem_map.mp hc
      exact p.nesting_toJson.2.1
    show (Condition.toJson (.group .all (ps.map .atom))).nesting ≤ 5
    rw [Condition.nesting_toJson_group]
    omega

/-- **A package that was read is canonical.** -/
theorem package_canonical (himages : r.images = Image.Loader.pathOnly)
    (h : r.package d = .ok p) : p.Canonical := by
  obtain ⟨-, -, himage, hreq, -⟩ := package_eq_ok_iff.mp h
  refine ⟨image_bytes himages himage, (packageRequirements_canonical hx hreq).1, ?_, ?_⟩
  · intro plugin hplugin
    obtain ⟨e, -, hread⟩ := exists_element_of_plugin h hplugin
    obtain ⟨-, -, -, himage, -⟩ := plugin_eq_ok_iff.mp hread
    refine ⟨image_bytes himages himage, fun t ht => ?_⟩
    have hmem : t ∈ p.typePatterns := List.mem_flatMap.mpr ⟨plugin, hplugin, ht⟩
    obtain ⟨e, -, hq⟩ := exists_element_of_typePattern h hmem
    exact requirement_canonical hq
  · intro c hc
    obtain ⟨e, -, hq⟩ := exists_element_of_conditionalFiles h hc
    exact requirement_canonical hq

end

end Reader

/-! ## The line between the limits -/

/-- Whether the text of a package can be read: how deep the JSON forms of its
    conditions may nest, given the levels that they stand below. -/
def Package.FitsText (p : Package) : Prop :=
  (∀ t ∈ p.typePatterns, t.condition.toJson.nesting ≤ 118) ∧
    ∀ c ∈ p.conditionalFiles, c.condition.toJson.nesting ≤ 124

instance : DecidablePred Package.FitsText := fun _ =>
  inferInstanceAs (Decidable (_ ∧ _))

namespace Reader

variable {r : Reader} {d : Document} {p : Package}

/-! ## Packages at the line -/

/-- Groups of all in one another, below a group that holds them. -/
def nestedMembers : Nat → List Element
  | 0 => []
  | n + 1 =>
      [{ name := "dependencies", attributes := [("operator", "And")], children := nestedMembers n }]

/-- Groups of all in one another. -/
def nestedGroups (n : Nat) : Element :=
  { name := "dependencies", attributes := [("operator", "And")], children := nestedMembers n }

/-- Groups in one another have as many levels as there are groups. -/
theorem groupLevels_nestedGroups (n : Nat) : Grammar.groupLevels (nestedGroups n) = n + 1 := by
  induction n with
  | zero => rfl
  | succ n ih =>
      show 1 + max (Grammar.groupLevels (nestedGroups n)) 0 = _
      omega

/-- Every grammar reads groups in one another. -/
theorem mirrors_nestedGroups (g : Grammar) (n : Nat) :
    Grammar.Mirrors g (nestedGroups n) (Requirement.wrapped .all ⟨.all, []⟩ n) := by
  induction n with
  | zero => exact .group rfl .nil
  | succ n ih => exact .group rfl (.cons (.group rfl ih) .nil)

/-- Each of the groups takes two levels of JSON. -/
theorem nesting_wrapped (n : Nat) :
    (Requirement.wrapped .all ⟨.all, []⟩ n).toJson.nesting = 2 * n + 2 := by
  induction n with
  | zero => rfl
  | succ n ih =>
      show (Condition.toJson (.group .all _)).nesting = _
      rw [Condition.nesting_toJson_group]
      show 2 + max (Requirement.wrapped .all ⟨.all, []⟩ n).toJson.nesting 0 = _
      omega

/-- A document whose conditional files depend on groups in one another. -/
def nestedDocument (n : Nat) : Document :=
  { root := { name := "config", children := [
    { name := "moduleName" },
    { name := "conditionalFileInstalls", children := [
      { name := "patterns", children := [
        { name := "pattern", children := [nestedGroups n] }] }] }] } }

/-- The package that such a document describes. -/
def nestedPackage (n : Nat) : Package :=
  { version := "3.0", name := "", requirements := ⟨.all, []⟩,
    conditionalFiles := [⟨Requirement.wrapped .all ⟨.all, []⟩ n, []⟩] }

/-- The default options let groups nest 64 deep. -/
theorem package_nestedDocument {n : Nat} (h : n < 64) :
    Reader.package { grammar := .v3 } (nestedDocument n) = .ok (nestedPackage n) := by
  refine package_eq_ok_iff.mpr ⟨rfl, rfl, rfl, rfl, rfl, rfl, ?_⟩
  refine mapM_eq_ok_iff.mpr (.cons (conditionalPattern_eq_ok_iff.mpr ⟨?_, rfl⟩) .nil)
  refine ⟨nestedGroups n, rfl, requirement_eq_ok_iff.mpr ⟨mirrors_nestedGroups _ n, ?_⟩⟩
  rw [groupLevels_nestedGroups]
  exact h

/-! ## Reading the text -/

/-- **A package that was read comes back from its text exactly when it fits**,
    and otherwise its text cannot be read at all. -/
theorem package_text_reads_back (himages : r.images = Image.Loader.pathOnly)
    (hx : r.extension = Extension.declining ∨ ∃ kinds, r.extension = Extension.accepting kinds)
    (h : r.package d = .ok p) :
    Decoder.ofText? Package.decoder (Json.compact p.toJson)
      = if p.FitsText then some p else none := by
  -- the requirements of the package are never what does not fit
  have hfits : p.toJson.nesting ≤ Json.maxNesting ↔ p.FitsText := by
    obtain ⟨-, -, -, hreq, -⟩ := package_eq_ok_iff.mp h
    have hnesting := (packageRequirements_canonical hx hreq).2
    show p.toJson.nesting ≤ 118 + 9 ↔ _
    rw [Package.nesting_toJson_le_iff]
    constructor
    · rintro ⟨-, hpatterns, hfiles⟩
      exact ⟨hpatterns, hfiles⟩
    · rintro ⟨hpatterns, hfiles⟩
      exact ⟨by omega, hpatterns, hfiles⟩
  rw [(package_canonical hx himages h).ofText?_compact]
  simp only [hfits]

/-- The default options accept a package whose text cannot be read. -/
theorem package_text_unreadable :
    ∃ d p, d.root.nesting ≤ Document.defaultDepthLimit ∧
      Reader.package { grammar := .v3 } d = .ok p ∧
      Decoder.ofText? Package.decoder (Json.compact p.toJson) = none := by
  have hread : Reader.package { grammar := .v3 } (nestedDocument 62) = .ok (nestedPackage 62) :=
    package_nestedDocument (by decide)
  have hdeep : ¬(nestedPackage 62).FitsText := by
    intro hfits
    have hle := hfits.2 _ (List.mem_singleton.mpr rfl)
    rw [nesting_wrapped] at hle
    omega
  refine ⟨nestedDocument 62, nestedPackage 62, by decide +kernel, hread, ?_⟩
  rw [package_text_reads_back rfl (Or.inl rfl) hread, if_neg hdeep]

end Reader

end ModInstall
