/-! # Decimal numerals

    The numerals of attributes and version texts: an optional sign and then one
    or more ASCII digits, with any number of leading zeros.  A numeral whose
    value does not fit the word it is read into has no reading at all; nothing
    wraps. -/

namespace ModInstall.Text

/-- The value of one or more ASCII digits. -/
def digits? (cs : List Char) : Option Nat :=
  if cs ≠ [] ∧ cs.all Char.isDigit then some (Nat.ofDigitChars 10 cs 0) else none

/-- A numeral without a sign, or with a plus sign in front. -/
def unsigned? : List Char → Option Nat
  | '+' :: cs => digits? cs
  | cs        => digits? cs

/-- A numeral with either sign in front, or none. -/
def signed? : List Char → Option Int
  | '-' :: cs => (digits? cs).map fun n : Nat => -(n : Int)
  | cs        => (unsigned? cs).map fun n : Nat => (n : Int)

/-- A word of 32 bits without a sign. -/
def uint32OfNat? (n : Nat) : Option UInt32 :=
  if n < UInt32.size then some (UInt32.ofNat n) else none

/-- A word of 32 bits with a sign. -/
def int32OfInt? (n : Int) : Option Int32 :=
  if -2147483648 ≤ n ∧ n ≤ 2147483647 then some (Int32.ofInt n) else none

/-- The numerals from 0 to 4294967295. -/
def uint32? (cs : List Char) : Option UInt32 :=
  (unsigned? cs).bind uint32OfNat?

/-- The numerals from -2147483648 to 2147483647. -/
def int32? (cs : List Char) : Option Int32 :=
  (signed? cs).bind int32OfInt?

end ModInstall.Text
