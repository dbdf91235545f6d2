import ModInstall.Proofs.Condition.Tree
import ModInstall.Proofs.Markup.Tree
import ModInstall.Proofs.Package.Values

/-! # The grammar of conditions

    A condition is written as a tree of elements.  What such a tree may look
    like is said here apart from the reader: `Asks` is the table of atoms that
    a version of the format knows, `WellFormed` the trees that can be written
    with it, `Mirrors` the requirement that such a tree stands for, and
    `groupLevels` how many groups lie above each other in it.

    The reader walks the tree with a level counter and looks every child up in
    a chain of tables, newest first.  `requirementAt_eq_ok_iff` says that it
    reads exactly the mirrored requirement, and only while the levels last. -/

namespace ModInstall

open Markup (Element)

namespace Grammar

/-- The lookup along the chain of tables, as one table. -/
theorem conditionForm?_eq (g : Grammar) (kind : String) :
    g.conditionForm? kind =
      if kind = "dependencies" then some .group
      else if kind = "fileDependency" then some .file
      else if kind = "flagDependency" ∧ g ≠ .v1 then some .flag
      else if kind = "gameDependency" ∧ g = .v3 then some .gameVersion
      else if kind = "fommDependency" ∧ g = .v3 then some .managerVersion
      else none := by
  cases g <;>
    simp only [conditionForm?, lineage, List.findSome?, ownConditionForms, List.lookup_cons,
      List.lookup_nil] <;> grind

/-- An element asks a predicate, under a version of the format. -/
inductive Asks (g : Grammar) (e : Element) : Predicate → Prop
  | file {file : String} {state : FileState} :
      e.name = "fileDependency" → e.attribute? "file" = some file →
      e.attribute? "state" = some state.name → Asks g e (.file (Text.lowercase file) state)
  | flag {name value : String} :
      g ≠ .v1 → e.name = "flagDependency" → e.attribute? "flag" = some name →
      e.attribute? "value" = some value → Asks g e (.flag name value)
  | gameVersion {text : String} {wanted : Version} :
      g = .v3 → e.name = "gameDependency" → e.attribute? "version" = some text →
      Version.parse? text = some wanted → Asks g e (.gameVersion wanted)
  | managerVersion {text : String} {wanted : Version} :
      g = .v3 → e.name = "fommDependency" → e.attribute? "version" = some text →
      Version.parse? text = some wanted → Asks g e (.managerVersion wanted)

mutual

/-- An element is a well-formed group: it names an operator, and all its
    children are well-formed members. -/
inductive WellFormed (g : Grammar) : Element → Prop
  | group {e : Element} {operator : Operator} :
      e.attribute? "operator" = some operator.name →
      (∀ c ∈ e.children, WellFormedMember g c) → WellFormed g e

/-- An element is a well-formed member of a group. -/
inductive WellFormedMember (g : Grammar) : Element → Prop
  | group {e : Element} : e.name = "dependencies" → WellFormed g e → WellFormedMember g e
  | atom {e : Element} {p : Predicate} : Asks g e p → WellFormedMember g e

end

mutual

/-- A requirement mirrors an element: it has the operator of the element and,
    in the same order, one member for each child. -/
inductive Mirrors (g : Grammar) : Element → Requirement → Prop
  | group {e : Element} {q : Requirement} :
      e.attribute? "operator" = some q.operator.name →
      List.Forall₂ (MirrorsMember g) e.children q.members → Mirrors g e q

/-- A condition mirrors a member of a group. -/
inductive MirrorsMember (g : Grammar) : Element → Condition → Prop
  | group {e : Element} {q : Requirement} :
      e.name = "dependencies" → Mirrors g e q → MirrorsMember g e q.toCondition
  | atom {e : Element} {p : Predicate} : Asks g e p → MirrorsMember g e (.atom p)

end

mutual

/-- How many groups lie above each other in an element that is a group. -/
def groupLevels : Element → Nat
  | ⟨_, _, children, _, _⟩ => 1 + memberLevels children

/-- How many groups lie above each other among the members of a group. -/
def memberLevels : List Element → Nat
  | [] => 0
  | e :: es => max (if e.name = "dependencies" then groupLevels e else 0) (memberLevels es)

end

variable {g : Grammar} {e : Element} {q : Requirement}

theorem groupLevels_eq (e : Element) : groupLevels e = 1 + memberLevels e.children := by
  cases e
  rfl

/-- Only the groups among some elements have levels. -/
theorem memberLevels_le_iff {n : Nat} {es : List Element} :
    memberLevels es ≤ n ↔ ∀ e ∈ es, e.name = "dependencies" → groupLevels e ≤ n := by
  induction es with
  | nil => simp [memberLevels]
  | cons e es ih =>
      rw [memberLevels, Nat.max_le, ih, List.forall_mem_cons]
      by_cases h : e.name = "dependencies" <;> simp [h]

/-- Members that stand at some level stay within a bound when each group among
    them does. -/
theorem memberLevels_add_le_iff {level n : Nat} (h : level ≤ n) {es : List Element} :
    memberLevels es + level ≤ n ↔
      ∀ e ∈ es, e.name = "dependencies" → groupLevels e + level ≤ n := by
  have hroom : ∀ m, m + level ≤ n ↔ m ≤ n - level := by
    intro m
    omega
  simp only [hroom, memberLevels_le_iff]

/-- Groups nest no deeper than elements do. -/
theorem groupLevels_le_nesting (e : Element) : groupLevels e ≤ e.nesting := by
  induction e with
  | node e ih =>
      have : memberLevels e.children ≤ Element.nestingList e.children :=
        memberLevels_le_iff.mpr fun c hc _ =>
          Nat.le_trans (ih c hc) (Element.nestingList_le_iff.mp (Nat.le_refl _) c hc)
      rw [groupLevels_eq, Element.nesting_eq]
      omega

/-- What asks something is no group. -/
theorem Asks.name_ne {p : Predicate} (h : Asks g e p) : e.name ≠ "dependencies" := by
  cases h with
  | file hn | flag _ hn | gameVersion _ hn | managerVersion _ hn => rw [hn]; decide

/-- No condition asks the host. -/
theorem Asks.ne_foreign {t : ForeignTest} (h : Asks g e (.foreign t)) : False :=
  nomatch h

/-- Every grammar asks for files, by name and state. -/
theorem asks_iff_of_file {p : Predicate} (hn : e.name = "fileDependency") :
    Asks g e p ↔ ∃ file state, e.attribute? "file" = some file ∧
      e.attribute? "state" = some (FileState.name state) ∧
      p = .file (Text.lowercase file) state := by
  constructor
  · intro h
    cases h with
    | file _ hf hs => exact ⟨_, _, hf, hs, rfl⟩
    | flag _ h | gameVersion _ h | managerVersion _ h =>
        exact absurd (hn.symm.trans h) (by decide)
  · rintro ⟨file, state, hf, hs, rfl⟩
    exact .file hn hf hs

/-- The first grammar does not ask for flags. -/
theorem asks_iff_of_flag {p : Predicate} (hn : e.name = "flagDependency") :
    Asks g e p ↔ g ≠ .v1 ∧ ∃ name value, e.attribute? "flag" = some name ∧
      e.attribute? "value" = some value ∧ p = .flag name value := by
  constructor
  · intro h
    cases h with
    | flag hg _ hf hv => exact ⟨hg, _, _, hf, hv, rfl⟩
    | file h | gameVersion _ h | managerVersion _ h =>
        exact absurd (hn.symm.trans h) (by decide)
  · rintro ⟨hg, name, value, hf, hv, rfl⟩
    exact .flag hg hn hf hv

/-- Only the last grammar asks for the version of the game. -/
theorem asks_iff_of_game {p : Predicate} (hn : e.name = "gameDependency") :
    Asks g e p ↔ g = .v3 ∧ ∃ text wanted, e.attribute? "version" = some text ∧
      Version.parse? text = some wanted ∧ p = .gameVersion wanted := by
  constructor
  · intro h
    cases h with
    | gameVersion hg _ ht hv => exact ⟨hg, _, _, ht, hv, rfl⟩
    | file h | flag _ h | managerVersion _ h =>
        exact absurd (hn.symm.trans h) (by decide)
  · rintro ⟨hg, text, wanted, ht, hv, rfl⟩
    exact .gameVersion hg hn ht hv

/-- Only the last grammar asks for the version of the manager. -/
theorem asks_iff_of_manager {p : Predicate} (hn : e.name = "fommDependency") :
    Asks g e p ↔ g = .v3 ∧ ∃ text wanted, e.attribute? "version" = some text ∧
      Version.parse? text = some wanted ∧ p = .managerVersion wanted := by
  constructor
  · intro h
    cases h with
    | managerVersion hg _ ht hv => exact ⟨hg, _, _, ht, hv, rfl⟩
    | file h | flag _ h | gameVersion _ h =>
        exact absurd (hn.symm.trans h) (by decide)
  · rintro ⟨hg, text, wanted, ht, hv, rfl⟩
    exact .managerVersion hg hn ht hv

/-- Only groups that follow the grammar are mirrored. -/
theorem Mirrors.wellFormed (h : Mirrors g e q) : WellFormed g e := by
  induction e generalizing q with
  | node e ih =>
      obtain ⟨ho, hm⟩ := h
      refine .group ho fun c hc => ?_
      obtain ⟨m, -, hcm⟩ := exists_mem_right_of_forall₂ hm hc
      cases hcm with
      | group hn hq => exact .group hn (ih c hc hq)
      | atom hp => exact .atom hp

/-- Every group that follows the grammar is mirrored by a condition. -/
theorem WellFormed.exists_mirrors (h : WellFormed g e) : ∃ q, Mirrors g e q := by
  induction e with
  | node e ih =>
      cases h with
      | @group _ o ho hm =>
          obtain ⟨ms, hms⟩ := exists_forall₂ (R := MirrorsMember g) fun c hc => by
            cases hm c hc with
            | group hn hw =>
                obtain ⟨q, hq⟩ := ih c hc hw
                exact ⟨_, .group hn hq⟩
            | atom hp => exact ⟨_, .atom hp⟩
          exact ⟨⟨o, ms⟩, .group ho hms⟩

/-- The depth of a requirement is the number of levels it mirrors. -/
theorem Mirrors.depth_eq (h : Mirrors g e q) : q.depth = groupLevels e := by
  induction e generalizing q with
  | node e ih =>
      obtain ⟨-, hm⟩ := h
      -- along the children, since the members mirror them in order
      have hlist : ∀ {es : List Element} {cs : List Condition}, (∀ c ∈ es, c ∈ e.children) →
          List.Forall₂ (MirrorsMember g) es cs → Condition.depthList cs = memberLevels es := by
        intro es cs hsub hf
        induction hf with
        | nil => rfl
        | @cons c m es cs hcm _ ihl =>
            rw [Condition.depthList, memberLevels,
              ihl fun d hd => hsub d (List.mem_cons_of_mem _ hd)]
            cases hcm with
            | @group _ q hn hq =>
                rw [if_pos hn, ← ih c (hsub c (List.mem_cons_self ..)) hq]
                rfl
            | atom hp => rw [if_neg hp.name_ne, Condition.depth]
      show 1 + Condition.depthList q.members = _
      rw [groupLevels_eq, hlist (fun _ hc => hc) hm]

end Grammar

namespace Reader

open Grammar

variable {r : Reader} {level : Nat} {e : Element}

/-! ## One member at a time -/

/-- Reads one member of a group; if it is a group it stands at `level`. -/
def memberAt (r : Reader) (level : Nat) (e : Element) : Except ConfigError Condition :=
  match r.grammar.conditionForm? e.name with
  | none => .error (.unknownNode e.name)
  | some .group => (r.requirementAt level e).map Requirement.toCondition
  | some .file => (filePredicate e).map .atom
  | some .flag => (flagPredicate e).map .atom
  | some .gameVersion => (requireVersion e).map (.atom ∘ .gameVersion)
  | some .managerVersion => (requireVersion e).map (.atom ∘ .managerVersion)

theorem membersAt_eq_mapM (r : Reader) (level : Nat) (es : List Element) :
    r.membersAt level es = es.mapM (r.memberAt level) := by
  induction es with
  | nil => rfl
  | cons e es ih =>
      rw [membersAt, List.mapM_cons, ih, memberAt]
      cases r.grammar.conditionForm? e.name with
      | none => rfl
      | some form => cases form <;> rfl

/-- A group within the limit is its operator and its members, one level down. -/
theorem requirementAt_eq (r : Reader) (level : Nat) (e : Element) :
    r.requirementAt level e =
      if r.options.maxConditionDepth < level then
        .error (.conditionTooDeep r.options.maxConditionDepth)
      else do
        let operator ← requireValue .operator Operator.ofName? e "operator"
        let members ← e.children.mapM (r.memberAt (level + 1))
        return ⟨operator, members⟩ := by
  rw [← membersAt_eq_mapM]
  cases e
  rw [requirementAt]

/-- A member is a group that is read as one, or asks a predicate. -/
theorem memberAt_eq_ok_iff {c : Condition} :
    r.memberAt level e = .ok c ↔
      (e.name = "dependencies" ∧ ∃ q, r.requirementAt level e = .ok q ∧ q.toCondition = c) ∨
      ∃ p, Asks r.grammar e p ∧ .atom p = c := by
  rw [memberAt, conditionForm?_eq]
  split_ifs with hgroup hfile hflag hgame hmanager
  · rw [map_eq_ok_iff]
    refine ⟨fun h => Or.inl ⟨hgroup, h⟩, ?_⟩
    rintro (⟨-, h⟩ | ⟨p, hp, -⟩)
    · exact h
    · exact absurd hgroup hp.name_ne
  · simp only [map_eq_ok_iff, filePredicate_eq_ok_iff, asks_iff_of_file hfile, hgroup, false_and,
      false_or]
  · simp only [map_eq_ok_iff, flagPredicate_eq_ok_iff, asks_iff_of_flag hflag.1, hflag.2, hgroup,
      false_and, false_or, true_and, ne_eq, not_false_eq_true]
  · simp only [map_eq_ok_iff, requireVersion_eq_ok_iff, asks_iff_of_game hgame.1, hgame.2, hgroup,
      false_and, false_or, true_and]
    grind
  · simp only [map_eq_ok_iff, requireVersion_eq_ok_iff, asks_iff_of_manager hmanager.1,
      hmanager.2, hgroup, false_and, false_or, true_and]
    grind
  · -- no table knows the name, so the element asks nothing
    simp only [hgroup, false_and, false_or, false_iff]
    rintro ⟨p, hp, -⟩
    cases hp with
    | file hn => exact hfile hn
    | flag hg hn => exact hflag ⟨hn, hg⟩
    | gameVersion hg hn => exact hgame ⟨hn, hg⟩
    | managerVersion hg hn => exact hmanager ⟨hn, hg⟩

/-! ## Whole trees -/

/-- Members are read to what they mirror, as far as the groups among them are
    read to what those mirror. -/
theorem memberAt_eq_ok_iff_mirrors {c : Condition}
    (h : ∀ q, r.requirementAt level e = .ok q ↔
      Mirrors r.grammar e q ∧ groupLevels e + level ≤ r.options.maxConditionDepth + 1) :
    r.memberAt level e = .ok c ↔
      (e.name = "dependencies" → groupLevels e + level ≤ r.options.maxConditionDepth + 1) ∧
      MirrorsMember r.grammar e c := by
  rw [memberAt_eq_ok_iff]
  constructor
  · rintro (⟨hn, q, hq, rfl⟩ | ⟨p, hp, rfl⟩)
    · obtain ⟨hm, hl⟩ := (h q).mp hq
      exact ⟨fun _ => hl, .group hn hm⟩
    · exact ⟨fun hn => absurd hn hp.name_ne, .atom hp⟩
  · rintro ⟨hl, hm⟩
    cases hm with
    | group hn hq => exact Or.inl ⟨hn, _, (h _).mpr ⟨hq, hl hn⟩, rfl⟩
    | atom hp => exact Or.inr ⟨_, hp, rfl⟩

/-- **What the reader reads**: the requirement that an element mirrors, while
    its levels fit below the limit. -/
theorem requirementAt_eq_ok_iff {q : Requirement} :
    r.requirementAt level e = .ok q ↔
      Mirrors r.grammar e q ∧ groupLevels e + level ≤ r.options.maxConditionDepth + 1 := by
  induction e generalizing level q with
  | node e ih =>
      rw [requirementAt_eq, groupLevels_eq]
      by_cases hl : r.options.maxConditionDepth < level
      · -- the group is refused, and its own level is already too many
        simp only [if_pos hl, reduceCtorEq, false_iff]
        rintro ⟨-, h⟩
        omega
      · have hbelow : level + 1 ≤ r.options.maxConditionDepth + 1 := by omega
        have hlevels : 1 + memberLevels e.children + level
            = memberLevels e.children + (level + 1) := by omega
        -- the members are read one level down, each to what it mirrors
        have hmembers : ∀ ms, e.children.mapM (r.memberAt (level + 1)) = .ok ms ↔
            (∀ c ∈ e.children, c.name = "dependencies" →
              groupLevels c + (level + 1) ≤ r.options.maxConditionDepth + 1) ∧
            List.Forall₂ (MirrorsMember r.grammar) e.children ms := by
          intro ms
          rw [mapM_eq_ok_iff, ← List.forall₂_and_left]
          exact forall₂_congr_mem fun c hc m => memberAt_eq_ok_iff_mirrors fun q => ih c hc
        rw [hlevels, memberLevels_add_le_iff hbelow]
        simp only [if_neg hl, bind_eq_ok_iff, requireOperator_eq_ok_iff, hmembers, pure_eq_ok_iff]
        constructor
        · rintro ⟨o, ho, ms, ⟨hfit, hms⟩, rfl⟩
          exact ⟨.group ho hms, hfit⟩
        · rintro ⟨⟨ho, hms⟩, hfit⟩
          exact ⟨q.operator, ho, q.members, ⟨hfit, hms⟩, rfl⟩

/-- A well-formed group is read, or found too deep; nothing else is wrong with
    it. -/
theorem requirementAt_of_wellFormed (h : WellFormed r.grammar e) :
    (∃ q, r.requirementAt level e = .ok q) ∨
      r.requirementAt level e = .error (.conditionTooDeep r.options.maxConditionDepth) := by
  induction e generalizing level with
  | node e ih =>
      rw [requirementAt_eq]
      by_cases hl : r.options.maxConditionDepth < level
      · exact Or.inr (if_pos hl)
      · rw [if_neg hl]
        cases h with
        | @group _ o ho hm =>
            rw [requireOperator_eq_ok_iff.mpr ho]
            -- an atom is always read, so only a group below can be too deep
            have hmember : ∀ c ∈ e.children, (∃ m, r.memberAt (level + 1) c = .ok m) ∨
                r.memberAt (level + 1) c
                  = .error (.conditionTooDeep r.options.maxConditionDepth) := by
              intro c hc
              cases hm c hc with
              | group hn hw =>
                  have hread := @ih c hc (level + 1) hw
                  rw [memberAt, conditionForm?_eq, if_pos hn]
                  rcases hread with ⟨q, hq⟩ | he
                  · exact Or.inl ⟨_, by rw [hq]; rfl⟩
                  · exact Or.inr (by rw [he]; rfl)
              | @atom _ p hp =>
                  exact Or.inl ⟨_, memberAt_eq_ok_iff.mpr (Or.inr ⟨p, hp, rfl⟩)⟩
            rcases mapM_ok_or_error hmember with ⟨ms, hms⟩ | he
            · exact Or.inl ⟨⟨o, ms⟩, by rw [hms]; rfl⟩
            · exact Or.inr (by rw [he]; rfl)

/-- A group is read to the requirement that it mirrors, if its levels stay
    within the limit. -/
theorem requirement_eq_ok_iff {q : Requirement} :
    r.requirement e = .ok q ↔
      Mirrors r.grammar e q ∧ groupLevels e ≤ r.options.maxConditionDepth := by
  rw [requirement, requirementAt_eq_ok_iff, Nat.add_le_add_iff_right]

/-- **The reader accepts exactly the grammar of conditions and mirrors what it
    reads.**  It gives a requirement exactly for a well-formed element whose
    groups stay within the limit; the requirement then mirrors the element and
    is as deep as its groups nest; and the one thing that can be wrong with a
    well-formed element is that it goes deeper. -/
theorem requirement_reads_grammar (r : Reader) (e : Element) :
    ((∃ q, r.requirement e = .ok q) ↔
      WellFormed r.grammar e ∧ groupLevels e ≤ r.options.maxConditionDepth) ∧
    (∀ q, r.requirement e = .ok q → Mirrors r.grammar e q ∧ q.depth = groupLevels e) ∧
    (WellFormed r.grammar e → r.options.maxConditionDepth < groupLevels e →
      r.requirement e = .error (.conditionTooDeep r.options.maxConditionDepth)) := by
  simp only [requirement_eq_ok_iff]
  refine ⟨⟨?_, ?_⟩, ?_, ?_⟩
  · rintro ⟨q, hq, hl⟩
    exact ⟨hq.wellFormed, hl⟩
  · rintro ⟨hw, hl⟩
    obtain ⟨q, hq⟩ := hw.exists_mirrors
    exact ⟨q, hq, hl⟩
  · rintro q ⟨hq, -⟩
    exact ⟨hq, hq.depth_eq⟩
  · intro hw hl
    have hread : (∃ q, r.requirement e = .ok q) ∨ _ := requirementAt_of_wellFormed hw
    rcases hread with ⟨q, hq⟩ | he
    · have := (requirement_eq_ok_iff.mp hq).2
      omega
    · exact he

/-- A group in a group is one level too many where one is allowed, and fits
    where two are. -/
theorem requirement_reads_grammar_nested :
    ∃ e : Element, WellFormed .v1 e ∧ groupLevels e = 2 ∧
      Reader.requirement { grammar := .v1, options := { maxConditionDepth := 1 } } e
        = .error (.conditionTooDeep 1) ∧
      ∃ q, Reader.requirement { grammar := .v1, options := { maxConditionDepth := 2 } } e
        = .ok q := by
  obtain ⟨inner, hinner⟩ : ∃ inner : Element,
      inner = { name := "dependencies", attributes := [("operator", "Or")] } := ⟨_, rfl⟩
  have hin : WellFormed .v1 inner := by
    rw [hinner]
    exact @WellFormed.group _ _ .some rfl fun c hc => nomatch hc
  have hout : WellFormed .v1
      { name := "visible", attributes := [("operator", "And")], children := [inner] } := by
    refine @WellFormed.group _ _ .all rfl fun c hc => ?_
    obtain rfl := List.mem_singleton.mp hc
    exact .group (by rw [hinner]) hin
  have hlevels : groupLevels
      { name := "visible", attributes := [("operator", "And")], children := [inner] } = 2 := by
    rw [hinner]
    rfl
  refine ⟨_, hout, hlevels, ?_, ?_⟩
  · exact (requirement_reads_grammar _ _).2.2 hout (by rw [hlevels]; decide)
  · exact (requirement_reads_grammar _ _).1.mpr ⟨hout, Nat.le_of_eq hlevels⟩

end Reader

end ModInstall
