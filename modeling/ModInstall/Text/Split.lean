/-! # Pieces of a text

    `pieces sep cs` cuts a text at every character that `sep` picks.  The
    pieces between two neighbouring separators may be empty, and there is
    always at least one piece: an empty text is one empty piece. -/

namespace ModInstall.Text

/-- Puts a character in front of the first piece. -/
def consHead (c : Char) : List (List Char) → List (List Char)
  | []      => [[c]]
  | w :: ws => (c :: w) :: ws

/-- The stretches of a text between the characters that `sep` picks, in
    order. -/
def pieces (sep : Char → Bool) : List Char → List (List Char)
  | []      => [[]]
  | c :: cs => if sep c then [] :: pieces sep cs else consHead c (pieces sep cs)

/-- The pieces of a string, as strings. -/
def piecesOf (sep : Char → Bool) (s : String) : List String :=
  (pieces sep s.toList).map String.ofList

/-- A text without its leading `lead`, if it starts with that. -/
def dropLead? : (lead text : List Char) → Option (List Char)
  | [], cs           => some cs
  | _ :: _, []       => none
  | l :: ls, c :: cs => if l = c then dropLead? ls cs else none

/-- A text without its final `tail`, if it ends with that. -/
def dropTail? (tail text : List Char) : Option (List Char) :=
  (dropLead? tail.reverse text.reverse).map List.reverse

theorem pieces_ne_nil (sep : Char → Bool) (cs : List Char) : pieces sep cs ≠ [] := by
  cases cs with
  | nil => simp [pieces]
  | cons c cs =>
      rw [pieces]
      split
      · simp
      · cases pieces sep cs <;> simp [consHead]

theorem dropLead?_eq_some_iff {lead text rest : List Char} :
    dropLead? lead text = some rest ↔ text = lead ++ rest := by
  induction lead generalizing text with
  | nil => simp [dropLead?]
  | cons l ls ih =>
      cases text with
      | nil => simp [dropLead?]
      | cons c cs =>
          rw [dropLead?]
          split
          · next h => simp [h, ih]
          · next h => simp [Ne.symm h]

theorem dropTail?_eq_some_iff {tail text rest : List Char} :
    dropTail? tail text = some rest ↔ text = rest ++ tail := by
  simp only [dropTail?, Option.map_eq_some_iff, dropLead?_eq_some_iff]
  constructor
  · rintro ⟨r, hr, rfl⟩
    rw [← List.reverse_reverse text, hr, List.reverse_append, List.reverse_reverse]
  · rintro rfl
    exact ⟨rest.reverse, List.reverse_append .., List.reverse_reverse _⟩

end ModInstall.Text
