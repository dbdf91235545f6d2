import ModInstall.Text.CaseTable

/-! # Lower case

    File names are compared without regard to case, so they are kept in lower
    case.  The mapping is that of Unicode: each character has its own
    lower-case form, `İ` becomes two characters, and a capital sigma becomes
    `ς` where it ends a word and `σ` elsewhere.  Nothing that the mapping
    writes is changed by it again. -/

namespace ModInstall.Text

/-- Whether a run of the table moves a code point. -/
def CaseRun.covers (r : CaseRun) (n : Nat) : Bool :=
  r.first ≤ n && n ≤ r.last && (n - r.first) % r.stride == 0

/-- The lower-case form of a code point by a sorted table of runs. -/
def lowerCode (n : Nat) : List CaseRun → Nat
  | []      => n
  | r :: rs =>
      if n < r.first then n
      else if r.covers n then (n + r.shift).toNat
      else lowerCode n rs

/-- Whether a sorted list of intervals holds a code point. -/
def inRanges (n : Nat) : List (Nat × Nat) → Bool
  | []            => false
  | (lo, hi) :: r => lo ≤ n && (n ≤ hi || inRanges n r)

/-- The lower-case form of a character that stands for itself, apart from its
    neighbours. -/
def lowerChar (c : Char) : Char :=
  Char.ofNat (lowerCode c.toNat CaseTable.runs)

/-- Whether the first character that case sees is a cased letter. -/
def startsCased (cs : List Char) : Bool :=
  match cs.dropWhile fun c => inRanges c.toNat CaseTable.ignorable with
  | []     => false
  | c :: _ => inRanges c.toNat CaseTable.cased

/-- The lower-case form of a character between `before`, nearest character
    first, and `after`.  A capital sigma that follows a cased letter and is
    followed by none ends its word. -/
def lowerAt (before : List Char) (c : Char) (after : List Char) : List Char :=
  if c = 'Σ' then
    if startsCased before && !startsCased after then ['ς'] else ['σ']
  else if c = 'İ' then ['i', '\u0307']
  else [lowerChar c]

/-- The lower-case form of a text that follows `before`, nearest character
    first. -/
def lowerAfter (before : List Char) : List Char → List Char
  | []      => []
  | c :: cs => lowerAt before c cs ++ lowerAfter (c :: before) cs

/-- A string in lower case. -/
def lowercase (s : String) : String :=
  String.ofList (lowerAfter [] s.toList)

end ModInstall.Text
