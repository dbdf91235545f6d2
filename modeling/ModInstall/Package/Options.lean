import ModInstall.Condition.Predicate
import ModInstall.Markup.Element

/-! # Options and extensions of the reader

    The options of a reader, and the hook for requirements that no grammar
    knows: an `Extension` may turn such a node into a predicate, most simply
    into a foreign test that the host answers later. -/

namespace ModInstall

/-- The options for reading a package. -/
structure Options where
  /-- How deep the groups of a condition may nest. -/
  maxConditionDepth : Nat := 64
  /-- Whether blanks around the description of a plugin are cut off. -/
  trimDescriptions : Bool := true
  /-- The version to assume where the document declares none. -/
  fallbackVersion : Option String := none
deriving DecidableEq

/-- What a host makes of a requirement that the grammar does not know. -/
abbrev Extension := Markup.Element → Option Predicate

namespace Extension

/-- The extension that accepts nothing. -/
def declining : Extension := fun _ => none

/-- The foreign test that a node stands for. -/
def testOf (node : Markup.Element) : ForeignTest where
  kind       := node.name
  attributes := node.attributes
  text       := node.text

/-- The extension that accepts the nodes of some kinds, as foreign tests. -/
def accepting (kinds : List String) : Extension := fun node =>
  if node.name ∈ kinds then some (.foreign (testOf node)) else none

end Extension

end ModInstall
