import ModInstall.Json.Value

/-! # Values that a text keeps

    Not every value comes back from its text as itself: a decimal is whatever
    its text says, and a number beyond all doubles cannot be read at all.
    `Exact` are the values without such parts.  Whatever installers write is
    exact, and nothing in an exact value is unreadable. -/

namespace ModInstall.Json

/-- A value without decimals, whose numbers have no more than 308 digits and in
    which everything can be read. -/
inductive Exact : Json → Prop
  | null : Exact .null
  | bool (truth : Bool) : Exact (.bool truth)
  | int {n : Int} : (Nat.toDigits 10 n.natAbs).length ≤ 308 → Exact (.int n)
  | string (text : String) : Exact (.string text)
  | array {vs : List Json} : (∀ v ∈ vs, Exact v) → Exact (.array vs)
  | object {es : List (String × Json)} : (∀ e ∈ es, Exact e.2) → Exact (.object es)

/-- Items are readable when each of them is. -/
theorem areReadable_iff {vs : List Json} :
    areReadable vs = true ↔ ∀ v ∈ vs, v.isReadable = true := by
  induction vs with
  | nil => simp [areReadable]
  | cons v vs ih => simp [areReadable, ih]

/-- Entries are readable when the value of each of them is. -/
theorem entriesReadable_iff {es : List (String × Json)} :
    entriesReadable es = true ↔ ∀ e ∈ es, e.2.isReadable = true := by
  induction es with
  | nil => simp [entriesReadable]
  | cons e es ih => simp [entriesReadable, ih]

/-- Nothing in an exact value is unreadable. -/
theorem Exact.isReadable {v : Json} (h : Exact v) : v.isReadable = true := by
  induction h with
  | null | bool | int | string => rfl
  | array _ ih => exact areReadable_iff.mpr ih
  | object _ ih => exact entriesReadable_iff.mpr ih

/-- Items nest as deep as the deepest of them. -/
theorem nestingItems_le_iff {n : Nat} {vs : List Json} :
    nestingItems vs ≤ n ↔ ∀ v ∈ vs, v.nesting ≤ n := by
  induction vs with
  | nil => simp [nestingItems]
  | cons v vs ih => rw [nestingItems, Nat.max_le, ih, List.forall_mem_cons]

end ModInstall.Json
