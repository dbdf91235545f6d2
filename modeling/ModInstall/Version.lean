import ModInstall.Text.Split
import ModInstall.Text.Blank
import ModInstall.Text.Numeral

/-! # Versions

    A version is a list of numbers written with dots between them, such as
    `1.4.0.525`.  Components that are not written count as zero when two
    versions are compared, so `1.5` and `1.5.0` are the same version although
    they are two different values: `=` tells them apart and `compare` does
    not. -/

namespace ModInstall

/-- A dotted version number. -/
structure Version where
  components : List UInt32
deriving DecidableEq

namespace Version

/-- Compares two lists of components, the shorter one padded with zeros. -/
def compareComponents : (as bs : List UInt32) → Ordering
  | [],      bs => if bs.all (· == 0) then .eq else .lt
  | a :: as, bs => (Ord.compare a (bs.headD 0)).then (compareComponents as bs.tail)

/-- The order of versions: the first components that differ decide. -/
def compare (a b : Version) : Ordering :=
  compareComponents a.components b.components

/-- Whether two versions agree up to trailing zeros. -/
def same (a b : Version) : Bool :=
  compare a b == .eq

/-- Whether an installed version is at least the one asked for. -/
def atLeast (installed wanted : Version) : Bool :=
  (compare installed wanted).isGE

/-- The text of a version: its components in decimal, with dots between
    them. -/
def display (v : Version) : String :=
  ".".intercalate (v.components.map fun c => Nat.repr c.toNat)

/-- Reads a version from a text.  Blanks around it are passed over; every part
    between dots must be a numeral of its own. -/
def parse? (text : String) : Option Version :=
  ((Text.pieces (· == '.') (Text.trim text.toList)).mapM Text.uint32?).map Version.mk

end Version

end ModInstall
