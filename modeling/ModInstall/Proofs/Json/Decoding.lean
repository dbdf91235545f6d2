import Mathlib.Data.List.Forall2
import ModInstall.Json.Decoder
import ModInstall.Proofs.Json.Exact

/-! # Decoders and the room they need

    A decoder that enters all of a value reads it exactly when there is room
    for its nesting.  `Reads` says so in one equation, and what follows builds
    it up: scalars need no room, an array needs one level more than its items,
    and an object one level more than the values of its keys. -/

namespace ModInstall.Json

variable {α β : Type}

/-- A decoder reads a value as `a`, if there is room for all of it, and
    nothing else. -/
def Reads (d : Decoder α) (v : Json) (a : α) : Prop :=
  ∀ room, d room v = if v.nesting ≤ room then some a else none

/-- Entries nest as deep as their values do as the items of an array. -/
theorem nestingItems_values (es : List (String × Json)) :
    nestingItems (es.map Prod.snd) = nestingEntries es := by
  induction es with
  | nil => rfl
  | cons e es ih => rw [List.map_cons, nestingItems, nestingEntries, ih]

namespace Reads

/-! ## Scalars -/

theorem string (s : String) : Reads Decoder.string (.string s) s :=
  fun _ => (if_pos (Nat.zero_le _)).symm

theorem bool (b : Bool) : Reads Decoder.bool (.bool b) b :=
  fun _ => (if_pos (Nat.zero_le _)).symm

theorem named {ofName? : String → Option α} {s : String} {a : α} (h : ofName? s = some a) :
    Reads (Decoder.named ofName?) (.string s) a :=
  fun _ => h.trans (if_pos (Nat.zero_le _)).symm

theorem parsed {parse? : String → Option α} {s : String} {a : α} (h : parse? s = some a) :
    Reads (Decoder.parsed parse?) (.string s) a :=
  fun _ => h.trans (if_pos (Nat.zero_le _)).symm

/-- A number is read when it fits the word. -/
theorem int32 {n : Int} {a : Int32} (h : Text.int32OfInt? n = some a) :
    Reads Decoder.int32 (.int n) a :=
  fun _ => h.trans (if_pos (Nat.zero_le _)).symm

theorem null (d : Decoder α) : Reads (Decoder.nullable d) .null none :=
  fun _ => (if_pos (Nat.zero_le _)).symm

/-- A value that is not null is read as it would be without the choice of
    null. -/
theorem nullable {d : Decoder α} {v : Json} {a : α} (hv : v ≠ .null) (h : Reads d v a) :
    Reads (Decoder.nullable d) v (some a) := by
  intro room
  have hsome : Decoder.nullable d room v = (d room v).map some := by
    cases v <;> first | rfl | exact absurd rfl hv
  rw [hsome, h room]
  split <;> rfl

/-- What is made of a value needs the room of the value. -/
theorem map {d : Decoder α} {v : Json} {a : α} (h : Reads d v a) (f : α → β) :
    Reads (fun room v => (d room v).map f) v (f a) := by
  intro room
  show (d room v).map f = _
  rw [h room]
  split <;> rfl

/-! ## Arrays and maps -/

/-- Values that stand in a row are read one after the other, and the row needs
    the room of the deepest of them. -/
theorem mapM_eq {read : Nat → β → Option α} {value : β → Json} {xs : List β} {as : List α}
    (h : List.Forall₂
      (fun x a => ∀ room, read room x = if (value x).nesting ≤ room then some a else none) xs as)
    (room : Nat) :
    xs.mapM (read room) = if nestingItems (xs.map value) ≤ room then some as else none := by
  induction h with
  | nil => rfl
  | @cons x a xs as hx _ ih =>
      rw [List.mapM_cons, hx room, ih, List.map_cons, nestingItems]
      by_cases ha : (value x).nesting ≤ room
      · by_cases hs : nestingItems (xs.map value) ≤ room
        · rw [if_pos ha, if_pos hs, if_pos (Nat.max_le.mpr ⟨ha, hs⟩)]
          rfl
        · rw [if_pos ha, if_neg hs, if_neg fun h => hs (Nat.max_le.mp h).2]
          rfl
      · rw [if_neg ha, if_neg fun h => ha (Nat.max_le.mp h).1]
        rfl

/-- An array is read item by item, each with one level less of room. -/
theorem items {d : Decoder α} {vs : List Json} {as : List α} (h : List.Forall₂ (Reads d) vs as) :
    Reads (Decoder.list d) (.array vs) as := by
  intro room
  cases room with
  | zero => exact (if_neg (by rw [nesting]; omega)).symm
  | succ room =>
      have hrow : List.Forall₂ (fun v a => ∀ room, d room v
          = if (id v).nesting ≤ room then some a else none) vs as := h
      show vs.mapM (d room) = _
      simp only [mapM_eq hrow, List.map_id, nesting, Nat.add_comm 1, Nat.add_le_add_iff_right]

/-- A list that was written item by item is read as what its items are read
    as. -/
theorem list_map {d : Decoder β} {encode : α → Json} {result : α → β} {as : List α}
    (h : ∀ a ∈ as, Reads d (encode a) (result a)) :
    Reads (Decoder.list d) (.array (as.map encode)) (as.map result) :=
  items (List.forall₂_map_left_iff.mpr (List.forall₂_map_right_iff.mpr (List.forall₂_same.mpr h)))

/-- A list is read back, if each of its items is. -/
theorem list {d : Decoder α} {encode : α → Json} {as : List α}
    (h : ∀ a ∈ as, Reads d (encode a) a) :
    Reads (Decoder.list d) (.array (as.map encode)) as := by
  have hmap : Reads (Decoder.list d) (.array (as.map encode)) (as.map id) := list_map h
  rwa [List.map_id] at hmap

/-- A pair is an array of two. -/
theorem pair {d : Decoder α} {e : Decoder β} {v w : Json} {a : α} {b : β} (hv : Reads d v a)
    (hw : Reads e w b) : Reads (Decoder.pair d e) (.array [v, w]) (a, b) := by
  intro room
  cases room with
  | zero => exact (if_neg (by rw [nesting]; omega)).symm
  | succ room =>
      show ((d room v).bind fun a => (e room w).bind fun b => some (a, b)) = _
      rw [hv room, hw room]
      simp only [nesting, nestingItems, Nat.max_zero, Nat.add_comm 1, Nat.add_le_add_iff_right,
        Nat.max_le]
      split <;> split <;> simp_all

/-- The entries of an object whose keys are data. -/
theorem entries {d : Decoder α} {encode : α → Json} (h : ∀ a, Reads d (encode a) a)
    (es : List (String × α)) :
    Reads (Decoder.entries d) (.object (es.map fun e => (e.1, encode e.2))) es := by
  intro room
  cases room with
  | zero => exact (if_neg (by rw [nesting]; omega)).symm
  | succ room =>
      let read : Nat → String × Json → Option (String × α) := fun room e => do
        return (e.1, ← d room e.2)
      have hrow : List.Forall₂ (fun e a => ∀ room, read room e
          = if (Prod.snd e).nesting ≤ room then some a else none)
          (es.map fun e => (e.1, encode e.2)) es := by
        refine List.forall₂_map_left_iff.mpr (List.forall₂_same.mpr fun e _ room => ?_)
        show (d room (encode e.2)).bind _ = _
        rw [h e.2 room]
        split <;> rfl
      show (es.map fun e => (e.1, encode e.2)).mapM (read room) = _
      simp only [mapM_eq hrow, nestingItems_values, nesting, Nat.add_comm 1,
        Nat.add_le_add_iff_right]

end Reads

/-! ## Objects -/

/-- What the fields of an object are built to, if there is room for as many
    levels as those fields need. -/
def Builds (es : List (String × Json)) (levels : Nat) (build : Fields → Option α) (a : α) : Prop :=
  ∀ room, build ⟨room, es⟩ = if levels ≤ room then some a else none

variable {es : List (String × Json)} {levels : Nat} {key : String} {d : Decoder α} {v : Json}
  {a : α} {g : Fields → α → Option β} {b : β}

/-- Once nothing is left to read there is nothing to fail. -/
theorem Builds.done (a : α) : Builds es 0 (fun _ => some a) a :=
  fun _ => (if_pos (Nat.zero_le _)).symm

/-- A field that may be missing is read as its default or off a value. -/
theorem getD_cases {f : Fields} {default : α} (h : f.getD key default d = some a) :
    a = default ∨ ∃ v, d f.room v = some a := by
  rw [Fields.getD] at h
  cases hkey : f.entries.lookup key with
  | none =>
      rw [hkey] at h
      exact Or.inl (Option.some.inj h).symm
  | some v =>
      rw [hkey] at h
      exact Or.inr ⟨v, h⟩

namespace Reads

/-- One field of an object, and then the rest of it. -/
theorem field (h : Reads d v a) (hkey : es.lookup key = some v)
    (hrest : Builds es levels (fun f => g f a) b) :
    Builds es (max v.nesting levels) (fun f => f.get key d >>= g f) b := by
  intro room
  show ((es.lookup key).bind (d room)).bind (g ⟨room, es⟩) = _
  rw [hkey, Option.bind_some, h room]
  by_cases hv : v.nesting ≤ room
  · have hlevels : max v.nesting levels ≤ room ↔ levels ≤ room :=
      ⟨fun hm => (Nat.max_le.mp hm).2, fun hl => Nat.max_le.mpr ⟨hv, hl⟩⟩
    simp only [if_pos hv, Option.bind_some, hlevels]
    exact hrest room
  · rw [if_neg hv, if_neg fun hm => hv (Nat.max_le.mp hm).1]
    rfl

/-- A field that may be missing is read like any other where it is there. -/
theorem fieldD {default : α} (h : Reads d v a) (hkey : es.lookup key = some v)
    (hrest : Builds es levels (fun f => g f a) b) :
    Builds es (max v.nesting levels) (fun f => f.getD key default d >>= g f) b := by
  intro room
  have hget : Fields.getD ⟨room, es⟩ key default d = Fields.get ⟨room, es⟩ key d := by
    rw [Fields.getD, Fields.get, hkey]
    rfl
  show Fields.getD ⟨room, es⟩ key default d >>= g ⟨room, es⟩ = _
  rw [hget]
  exact field h hkey hrest room

/-- An object is read as what its fields make up, one level down. -/
theorem object {known : List String} {build : Fields → Option α}
    (hknown : occurOnce known es = true) (h : Builds es (nestingEntries es) build a) :
    Reads (fun room v => (fields known room v).bind build) (.object es) a := by
  intro room
  cases room with
  | zero => exact (if_neg (by rw [nesting]; omega)).symm
  | succ room =>
      show Option.bind (if occurOnce known es then some ⟨room, es⟩ else none) build = _
      rw [if_pos hknown, Option.bind_some, h room]
      simp only [nesting, Nat.add_comm 1, Nat.add_le_add_iff_right]

end Reads

end ModInstall.Json
