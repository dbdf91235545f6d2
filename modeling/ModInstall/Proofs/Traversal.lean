import Mathlib.Data.List.Forall2

/-! # Steps that may fail, one after the other

    A reader is a chain of steps in `Except`, and a list is read by the same
    step on every item.  These lemmas take such a chain apart: a chain
    succeeds when each step does, and a list is read exactly when every item
    is, in step with the results. -/

namespace ModInstall

variable {α β ε : Type}

/-- A chain succeeds when its first step does and the rest does on its value. -/
theorem bind_eq_ok_iff {x : Except ε α} {f : α → Except ε β} {b : β} :
    (x >>= f) = .ok b ↔ ∃ a, x = .ok a ∧ f a = .ok b := by
  cases x <;> simp [bind, Except.bind]

/-- A chain fails with its first step, or on its value with the rest. -/
theorem bind_eq_error_iff {x : Except ε α} {f : α → Except ε β} {e : ε} :
    (x >>= f) = .error e ↔ x = .error e ∨ ∃ a, x = .ok a ∧ f a = .error e := by
  cases x <;> simp [bind, Except.bind]

theorem pure_ne_error {a : α} {e : ε} : (pure a : Except ε α) ≠ .error e :=
  fun h => nomatch h

theorem pure_eq_ok_iff {a b : α} : (pure a : Except ε α) = .ok b ↔ a = b := by
  simp [pure, Except.pure]

/-- A result is mapped when there is one. -/
theorem map_eq_ok_iff {x : Except ε α} {f : α → β} {b : β} :
    x.map f = .ok b ↔ ∃ a, x = .ok a ∧ f a = b := by
  cases x <;> simp [Except.map]

/-- What is done to the error does not touch a result. -/
theorem mapError_eq_ok_iff {ε' : Type} {x : Except ε α} {f : ε → ε'} {a : α} :
    x.mapError f = .ok a ↔ x = .ok a := by
  cases x <;> simp [Except.mapError]

/-- Without its error, a chain is a chain of what its steps give. -/
theorem toOption_bind {x : Except ε α} {f : α → Except ε β} :
    (x >>= f).toOption = x.toOption.bind fun a => (f a).toOption := by
  cases x <;> rfl

/-- A list is read exactly when each item is, in step with the results. -/
theorem mapM_eq_ok_iff {f : α → Except ε β} {as : List α} {bs : List β} :
    as.mapM f = .ok bs ↔ List.Forall₂ (fun a b => f a = .ok b) as bs := by
  induction as generalizing bs with
  | nil => rw [List.mapM_nil, pure_eq_ok_iff, List.forall₂_nil_left_iff, eq_comm]
  | cons a as ih =>
      simp only [List.mapM_cons, bind_eq_ok_iff, pure_eq_ok_iff, ih,
        List.forall₂_cons_left_iff]
      constructor
      · rintro ⟨b, hb, bs', hbs, rfl⟩
        exact ⟨b, bs', hb, hbs, rfl⟩
      · rintro ⟨b, bs', hb, hbs, rfl⟩
        exact ⟨b, hb, bs', hbs, rfl⟩

/-- A list fails exactly with the failure of its first item that fails. -/
theorem mapM_eq_error_iff {f : α → Except ε β} {as : List α} {e : ε} :
    as.mapM f = .error e ↔ ∃ before a after, as = before ++ a :: after ∧
      (∀ c ∈ before, ∃ b, f c = .ok b) ∧ f a = .error e := by
  induction as with
  | nil => simp [pure_ne_error]
  | cons a as ih =>
      simp only [List.mapM_cons, bind_eq_error_iff, pure_ne_error, and_false, exists_false,
        or_false, ih]
      constructor
      · rintro (ha | ⟨b, hb, before, c, after, rfl, hbefore, hc⟩)
        · exact ⟨[], a, as, rfl, List.forall_mem_nil _, ha⟩
        · exact ⟨a :: before, c, after, rfl, List.forall_mem_cons.mpr ⟨⟨b, hb⟩, hbefore⟩, hc⟩
      · rintro ⟨before, c, after, has, hbefore, hc⟩
        -- the item that fails is the first one, or it stands in the rest
        rcases List.cons_eq_append_iff.mp has with ⟨rfl, hcons⟩ | ⟨rest, rfl, rfl⟩
        · obtain ⟨rfl, rfl⟩ := List.cons.inj hcons
          exact Or.inl hc
        · obtain ⟨⟨b, hb⟩, hrest⟩ := List.forall_mem_cons.mp hbefore
          exact Or.inr ⟨b, hb, rest, c, after, rfl, hrest, hc⟩

/-- Where each item is read to what it should be or fails in one of the ways
    that are foreseen, so does the list. -/
theorem mapM_ok_or_fails {f : α → Except ε β} {R : α → β → Prop} {fault : ε → Prop} {as : List α}
    (h : ∀ a ∈ as, (∃ b, f a = .ok b ∧ R a b) ∨ ∃ e, f a = .error e ∧ fault e) :
    (∃ bs, as.mapM f = .ok bs ∧ List.Forall₂ R as bs) ∨ ∃ e, as.mapM f = .error e ∧ fault e := by
  induction as with
  | nil => exact Or.inl ⟨[], rfl, .nil⟩
  | cons a as ih =>
      rw [List.mapM_cons]
      -- the first item decides, unless it is read
      rcases h a (List.mem_cons_self ..) with ⟨b, hb, hab⟩ | ⟨e, he, hf⟩
      · rw [hb]
        rcases ih fun a ha => h a (List.mem_cons_of_mem _ ha) with ⟨bs, hbs, hr⟩ | ⟨e, he, hf⟩
        · exact Or.inl ⟨b :: bs, by rw [hbs]; rfl, .cons hab hr⟩
        · exact Or.inr ⟨e, by rw [he]; rfl, hf⟩
      · exact Or.inr ⟨e, by rw [he]; rfl, hf⟩

/-- Where each item is read or fails with one and the same error, so does the
    list. -/
theorem mapM_ok_or_error {f : α → Except ε β} {as : List α} {e : ε}
    (h : ∀ a ∈ as, (∃ b, f a = .ok b) ∨ f a = .error e) :
    (∃ bs, as.mapM f = .ok bs) ∨ as.mapM f = .error e := by
  have hitem : ∀ a ∈ as, (∃ b, f a = .ok b ∧ True) ∨ ∃ e', f a = .error e' ∧ e' = e := by
    intro a ha
    rcases h a ha with ⟨b, hb⟩ | he
    · exact Or.inl ⟨b, hb, trivial⟩
    · exact Or.inr ⟨e, he, rfl⟩
  rcases mapM_ok_or_fails hitem with ⟨bs, hbs, -⟩ | ⟨_, he, rfl⟩
  · exact Or.inl ⟨bs, hbs⟩
  · exact Or.inr he

/-- Results can be chosen for all items at once. -/
theorem exists_forall₂ {R : α → β → Prop} {as : List α} (h : ∀ a ∈ as, ∃ b, R a b) :
    ∃ bs, List.Forall₂ R as bs := by
  induction as with
  | nil => exact ⟨[], .nil⟩
  | cons a as ih =>
      obtain ⟨b, hb⟩ := h a (List.mem_cons_self ..)
      obtain ⟨bs, hbs⟩ := ih fun a ha => h a (List.mem_cons_of_mem _ ha)
      exact ⟨b :: bs, .cons hb hbs⟩

/-- Two relations that agree on every item relate the same lists. -/
theorem forall₂_congr_mem {R S : α → β → Prop} {as : List α} {bs : List β}
    (h : ∀ a ∈ as, ∀ b, R a b ↔ S a b) : List.Forall₂ R as bs ↔ List.Forall₂ S as bs := by
  induction as generalizing bs with
  | nil => simp
  | cons a as ih =>
      simp only [List.forall₂_cons_left_iff, h a (List.mem_cons_self ..),
        ih fun a ha => h a (List.mem_cons_of_mem _ ha)]

/-- A relation that follows from another one on the items of two lists relates
    the lists that the other one relates. -/
theorem forall₂_imp_mem {R S : α → β → Prop} {as : List α} {bs : List β}
    (h : List.Forall₂ R as bs) (himp : ∀ a ∈ as, ∀ b ∈ bs, R a b → S a b) :
    List.Forall₂ S as bs := by
  induction h with
  | nil => exact .nil
  | cons hr _ ih =>
      refine .cons (himp _ (List.mem_cons_self ..) _ (List.mem_cons_self ..) hr) (ih ?_)
      exact fun a ha b hb => himp a (List.mem_cons_of_mem _ ha) b (List.mem_cons_of_mem _ hb)

/-- Each item on the right has its partner on the left. -/
theorem exists_mem_left_of_forall₂ {R : α → β → Prop} {as : List α} {bs : List β}
    (h : List.Forall₂ R as bs) {b : β} (hb : b ∈ bs) : ∃ a ∈ as, R a b := by
  induction h with
  | nil => exact nomatch hb
  | cons hr _ ih =>
      rcases List.mem_cons.mp hb with rfl | hb
      · exact ⟨_, List.mem_cons_self .., hr⟩
      · obtain ⟨a, ha, hab⟩ := ih hb
        exact ⟨a, List.mem_cons_of_mem _ ha, hab⟩

/-- What a list was read to comes from one of its items. -/
theorem exists_mem_of_mapM {f : α → Except ε β} {as : List α} {bs : List β}
    (h : as.mapM f = .ok bs) {b : β} (hb : b ∈ bs) : ∃ a ∈ as, f a = .ok b :=
  exists_mem_left_of_forall₂ (mapM_eq_ok_iff.mp h) hb

/-- Each item on the left has its partner on the right. -/
theorem exists_mem_right_of_forall₂ {R : α → β → Prop} {as : List α} {bs : List β}
    (h : List.Forall₂ R as bs) {a : α} (ha : a ∈ as) : ∃ b ∈ bs, R a b := by
  obtain ⟨b, hb, hr⟩ := exists_mem_left_of_forall₂ h.flip ha
  exact ⟨b, hb, hr⟩

theorem head?_of_forall₂ {R : α → β → Prop} {as : List α} {bs : List β}
    (h : List.Forall₂ R as bs) {a : α} (ha : as.head? = some a) :
    ∃ b, bs.head? = some b ∧ R a b := by
  cases h with
  | nil => exact nomatch ha
  | cons hr _ =>
      obtain rfl := Option.some.inj ha
      exact ⟨_, rfl, hr⟩

/-- What matches a list in two parts is in two parts. -/
theorem forall₂_append_left {R : α → β → Prop} {as as' : List α} {bs : List β}
    (h : List.Forall₂ R (as ++ as') bs) :
    ∃ cs cs', bs = cs ++ cs' ∧ List.Forall₂ R as cs ∧ List.Forall₂ R as' cs' :=
  ⟨_, _, (List.take_append_drop as.length bs).symm,
    (List.forall₂_take_append bs as as' h.flip).flip,
    (List.forall₂_drop_append bs as as' h.flip).flip⟩

/-- Items match those of a mapped list when they match what was mapped. -/
theorem forall₂_map_iff {γ : Type} {R : α → β → Prop} {f : β → γ} {as : List α} {cs : List γ} :
    List.Forall₂ (fun a c => ∃ b, c = f b ∧ R a b) as cs ↔
      ∃ bs, List.Forall₂ R as bs ∧ bs.map f = cs := by
  constructor
  · intro h
    induction h with
    | nil => exact ⟨[], .nil, rfl⟩
    | cons hc _ ih =>
        obtain ⟨b, rfl, hb⟩ := hc
        obtain ⟨bs, hbs, rfl⟩ := ih
        exact ⟨b :: bs, .cons hb hbs, rfl⟩
  · rintro ⟨bs, hbs, rfl⟩
    refine List.forall₂_map_right_iff.mpr (hbs.imp fun a b hb => ?_)
    exact ⟨b, rfl, hb⟩

/-! ## Failures -/

/-- Whatever a step fails with is a fault that is foreseen. -/
def FailsOnly (fault : ε → Prop) (x : Except ε α) : Prop :=
  ∀ e, x = .error e → fault e

namespace FailsOnly

variable {fault : ε → Prop}

theorem ok (a : α) : FailsOnly fault (.ok a : Except ε α) :=
  fun _ h => nomatch h

theorem error {e : ε} (h : fault e) : FailsOnly fault (.error e : Except ε α) := by
  intro e' he
  obtain rfl := Except.error.inj he
  exact h

/-- A chain fails with what its first step or, on its value, the rest fails
    with. -/
theorem bind {x : Except ε α} {f : α → Except ε β} (hx : FailsOnly fault x)
    (hf : ∀ a, x = .ok a → FailsOnly fault (f a)) : FailsOnly fault (x >>= f) := by
  cases x with
  | error e => exact error (hx e rfl)
  | ok a => exact hf a rfl

theorem map {x : Except ε α} (hx : FailsOnly fault x) (f : α → β) :
    FailsOnly fault (x.map f) := by
  cases x with
  | error e => exact error (hx e rfl)
  | ok a => exact ok (f a)

/-- A list fails with what the reading of one of its items fails with. -/
theorem mapM {f : α → Except ε β} {as : List α} (h : ∀ a ∈ as, FailsOnly fault (f a)) :
    FailsOnly fault (as.mapM f) := by
  induction as with
  | nil => exact ok []
  | cons a as ih =>
      rw [List.mapM_cons]
      refine (h a (List.mem_cons_self ..)).bind fun b _ => ?_
      exact (ih fun c hc => h c (List.mem_cons_of_mem _ hc)).bind fun bs _ => ok (b :: bs)

end FailsOnly

/-! ## Results compared -/

/-- Two results are the same, unless the first is a fault that is foreseen. -/
def SameUnless (fault : ε → Prop) (x y : Except ε α) : Prop :=
  x = y ∨ ∃ e, x = .error e ∧ fault e

namespace SameUnless

variable {γ : Type} {fault : ε → Prop}

theorem refl (x : Except ε α) : SameUnless fault x x :=
  Or.inl rfl

theorem error {e : ε} (h : fault e) (y : Except ε α) : SameUnless fault (.error e) y :=
  Or.inr ⟨e, rfl, h⟩

/-- A result that is no fault is the other's too. -/
theorem eq_ok {a : α} {y : Except ε α} (h : SameUnless fault (.ok a) y) : y = .ok a := by
  rcases h with rfl | ⟨e, he, -⟩
  · rfl
  · exact nomatch he

/-- An error that was not foreseen is the other's too. -/
theorem eq_error {e : ε} {y : Except ε α} (h : SameUnless fault (.error e) y) (he : ¬ fault e) :
    y = .error e := by
  rcases h with rfl | ⟨e', heq, hf⟩
  · rfl
  · obtain rfl := Except.error.inj heq
    exact absurd hf he

/-- Where no fault is foreseen the results are the same. -/
theorem eq {x y : Except ε α} (h : SameUnless (fun _ => False) x y) : x = y := by
  rcases h with rfl | ⟨_, -, hf⟩
  · rfl
  · exact hf.elim

theorem map {x y : Except ε α} (h : SameUnless fault x y) (f : α → β) :
    SameUnless fault (x.map f) (y.map f) := by
  rcases h with rfl | ⟨e, rfl, hf⟩
  · exact refl _
  · exact error hf _

/-- Two chains give results that correspond by a function, if their first steps
    do by another and then their rests. -/
theorem map_bind {δ : Type} {view : α → β} {k : γ → δ} {x : Except ε α} {y : Except ε β}
    {f : α → Except ε γ} {g : β → Except ε δ} (h : SameUnless fault (x.map view) y)
    (hf : ∀ a, SameUnless fault ((f a).map k) (g (view a))) :
    SameUnless fault ((x >>= f).map k) (y >>= g) := by
  cases x with
  | error e =>
      rcases h with rfl | ⟨e', he, hfault⟩
      · exact refl _
      · obtain rfl := Except.error.inj he
        exact error hfault _
  | ok a =>
      obtain rfl := h.eq_ok
      exact hf a

/-- Two chains that begin alike. -/
theorem bind_map {k : β → γ} {x y : Except ε α} {f : α → Except ε β} {g : α → Except ε γ}
    (h : SameUnless fault x y) (hf : ∀ a, SameUnless fault ((f a).map k) (g a)) :
    SameUnless fault ((x >>= f).map k) (y >>= g) := by
  have hx : SameUnless fault (x.map id) y := by simpa only [Except.map_id, id_eq] using h
  exact hx.map_bind hf

/-- Chains whose steps are the same, up to faults, are so themselves. -/
theorem bind {x y : Except ε α} {f g : α → Except ε β} (h : SameUnless fault x y)
    (hf : ∀ a, SameUnless fault (f a) (g a)) : SameUnless fault (x >>= f) (y >>= g) := by
  have hf' : ∀ a, SameUnless fault ((f a).map id) (g a) := by
    simpa only [Except.map_id, id_eq] using hf
  simpa only [Except.map_id, id_eq] using h.bind_map hf'

/-- Two lists are read to results that correspond by a function, if their items
    are. -/
theorem mapM_map {view : β → γ} {f : α → Except ε β} {g : α → Except ε γ} {as : List α}
    (h : ∀ a ∈ as, SameUnless fault ((f a).map view) (g a)) :
    SameUnless fault ((as.mapM f).map (List.map view)) (as.mapM g) := by
  induction as with
  | nil => exact refl _
  | cons a as ih =>
      rw [List.mapM_cons, List.mapM_cons]
      refine (h a (List.mem_cons_self ..)).map_bind fun b => ?_
      exact (ih fun c hc => h c (List.mem_cons_of_mem _ hc)).map_bind fun bs => refl _

/-- Lists that are read alike item by item are read alike. -/
theorem mapM {f g : α → Except ε β} {as : List α} (h : ∀ a ∈ as, SameUnless fault (f a) (g a)) :
    SameUnless fault (as.mapM f) (as.mapM g) := by
  have h' : ∀ a ∈ as, SameUnless fault ((f a).map id) (g a) := by
    simpa only [Except.map_id, id_eq] using h
  simpa only [List.map_id_fun, Except.map_id, id_eq] using mapM_map h'

end SameUnless

end ModInstall
