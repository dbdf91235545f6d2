import Mathlib.Data.List.Forall2
import Mathlib.Data.List.Perm.Basic
import ModInstall.Json.Decoder
import ModInstall.Proofs.Json.Exact

/-! # The order of keys

    An object is a set of keys with their values, and whoever passes a value on
    may write the keys in another order.  `Reordered` is a value written so, at
    any depth.  A reader that asks for keys by their names sees no difference:
    it meets the same values under the same keys, and as many levels. -/

namespace ModInstall.Json

/-- A value is another one with the keys of its objects in some other order. -/
inductive Reordered : Json → Json → Prop
  | refl (v : Json) : Reordered v v
  | array {vs ws : List Json} : List.Forall₂ Reordered vs ws → Reordered (.array vs) (.array ws)
  | object {es fs gs : List (String × Json)} :
      es.map Prod.fst = fs.map Prod.fst →
      List.Forall₂ Reordered (es.map Prod.snd) (fs.map Prod.snd) → fs.Perm gs →
      Reordered (.object es) (.object gs)

/-- Reordering leaves the items of an array in their places. -/
theorem reordered_array_iff {vs : List Json} {w : Json} :
    Reordered (.array vs) w ↔ ∃ ws, w = .array ws ∧ List.Forall₂ Reordered vs ws := by
  constructor
  · intro h
    cases h with
    | refl => exact ⟨vs, rfl, List.forall₂_same.mpr fun v _ => .refl v⟩
    | array hws => exact ⟨_, rfl, hws⟩
  · rintro ⟨ws, rfl, hws⟩
    exact .array hws

/-- Reordering an object reorders its values and then shuffles its entries. -/
theorem reordered_object_iff {es : List (String × Json)} {w : Json} :
    Reordered (.object es) w ↔
      ∃ fs gs : List (String × Json), w = .object gs ∧ es.map Prod.fst = fs.map Prod.fst ∧
        List.Forall₂ Reordered (es.map Prod.snd) (fs.map Prod.snd) ∧ fs.Perm gs := by
  constructor
  · intro h
    cases h with
    | refl => exact ⟨es, es, rfl, rfl, List.forall₂_same.mpr fun v _ => .refl v, .refl es⟩
    | object hkeys hvalues hgs => exact ⟨_, _, rfl, hkeys, hvalues, hgs⟩
  · rintro ⟨fs, gs, rfl, hkeys, hvalues, hgs⟩
    exact .object hkeys hvalues hgs

/-- An object may have its entries shuffled. -/
theorem Reordered.of_perm {es gs : List (String × Json)} (h : es.Perm gs) :
    Reordered (.object es) (.object gs) :=
  .object rfl (List.forall₂_same.mpr fun v _ => .refl v) h

/-- An object of two keys, the other way round. -/
theorem Reordered.swap {k l : String} {v v' w w' : Json} (hv : Reordered v v')
    (hw : Reordered w w') : Reordered (.object [(k, v), (l, w)]) (.object [(l, w'), (k, v')]) :=
  reordered_object_iff.mpr
    ⟨[(k, v'), (l, w')], _, rfl, rfl, .cons hv (.cons hw .nil), .swap (l, w') (k, v') []⟩

/-! ## Values without keys -/

/-- A value that can be written in one way only. -/
def Rigid (v : Json) : Prop :=
  ∀ w, Reordered v w → w = v

theorem Rigid.null : Rigid .null := by
  intro w h
  cases h
  rfl

theorem Rigid.bool (truth : Bool) : Rigid (.bool truth) := by
  intro w h
  cases h
  rfl

theorem Rigid.string (s : String) : Rigid (.string s) := by
  intro w h
  cases h
  rfl

/-- Values without objects in them do not change. -/
theorem eq_of_forall₂_rigid {vs ws : List Json} (h : List.Forall₂ Reordered vs ws)
    (hrigid : ∀ v ∈ vs, Rigid v) : ws = vs := by
  induction h with
  | nil => rfl
  | @cons v w vs ws hvw _ ih =>
      rw [hrigid v (List.mem_cons_self ..) w hvw,
        ih fun v hv => hrigid v (List.mem_cons_of_mem _ hv)]

/-- An array of values without objects is one itself. -/
theorem Rigid.array {vs : List Json} (h : ∀ v ∈ vs, Rigid v) : Rigid (.array vs) := by
  intro w hw
  obtain ⟨ws, rfl, hws⟩ := reordered_array_iff.mp hw
  rw [eq_of_forall₂_rigid hws h]

/-- An object of rigid values can be written in the orders of its keys, and in
    no other way. -/
theorem exists_perm_of_rigid {es : List (String × Json)} {w : Json}
    (h : Reordered (.object es) w) (hrigid : ∀ e ∈ es, Rigid e.2) :
    ∃ gs, w = .object gs ∧ es.Perm gs := by
  obtain ⟨fs, gs, rfl, hkeys, hvalues, hgs⟩ := reordered_object_iff.mp h
  have hsame : fs.map Prod.snd = es.map Prod.snd :=
    eq_of_forall₂_rigid hvalues (List.forall_mem_map.mpr hrigid)
  have hfs : fs = es := by
    rw [← List.zip_unzip fs, ← List.zip_unzip es, List.unzip_eq_map, List.unzip_eq_map, hkeys,
      hsame]
  exact ⟨gs, rfl, hfs ▸ hgs⟩

/-! ## What a reader of keys sees -/

section

variable {es gs : List (String × Json)} (h : es.Perm gs)
include h

/-- Whether keys occur once does not depend on their order. -/
theorem occurOnce_of_perm (known : List String) : occurOnce known gs = occurOnce known es := by
  simp only [occurOnce, (h.filter _).length_eq]

theorem nestingEntries_of_perm : nestingEntries gs = nestingEntries es := by
  induction h with
  | nil => rfl
  | cons e _ ih => simp only [nestingEntries, ih]
  | swap e f es => simp only [nestingEntries]; omega
  | trans _ _ ih₁ ih₂ => rw [ih₂, ih₁]

theorem isReadable_of_perm (hes : isReadable (.object es) = true) :
    isReadable (.object gs) = true :=
  entriesReadable_iff.mpr fun e he => entriesReadable_iff.mp hes e (h.mem_iff.mpr he)

end

end ModInstall.Json
