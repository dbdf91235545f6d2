import ModInstall.Proofs.Markup.Select
import ModInstall.Proofs.Markup.Syntax

/-! # Paths in a source

    Elements are found by paths, and so are the places in the source that they
    were read from.  The walk over nodes takes the same steps as the walk over
    elements, so what stands at the end of the one was read to what stands at
    the end of the other, place by place (`Reads.select`). -/

namespace ModInstall.Markup

namespace Node

/-- The start tag of an element. -/
def tag : Node → List Char
  | .empty tag | .element tag _ _ => tag
  | .text _ | .literal _ | .ignored _ => []

/-- The name of an element, without its prefix. -/
def name (n : Node) : String :=
  String.ofList (localName (Builder.tagName n.tag))

/-- The elements directly inside of an element. -/
def elements (n : Node) : List Node :=
  n.content.filter isElement

/-- Whether an element answers to a path segment. -/
def answers (segment : String) (n : Node) : Bool :=
  segment == "*" || n.name == segment

/-- The elements that a list of segments leads to from some nodes. -/
def descend (segments : List String) (ns : List Node) : List Node :=
  segments.foldl (fun ns segment => ns.flatMap fun n => n.elements.filter (answers segment)) ns

/-- The elements inside of an element that a path leads to. -/
def select (n : Node) (path : String) : List Node :=
  descend (Element.segments path) [n]

/-- The name in the tag, without its prefix, is the name of the element. -/
theorem Reads.name_eq {n : Node} {e : Element} (h : n.Reads e) : e.name = n.name := by
  cases h <;> rfl

/-- A node answers as its element does. -/
theorem Reads.answers_iff {n : Node} {e : Element} (h : n.Reads e) (segment : String) :
    n.answers segment = true ↔ e.answers segment = true := by
  rw [answers, Element.answers, h.name_eq]

end Node

/-- The elements among some nodes are what those yield, in order. -/
theorem Yields.forall₂ {ns : List Node} {es : List Element} {ts : List Char}
    (h : Yields ns es ts) : List.Forall₂ Node.Reads (ns.filter Node.isElement) es := by
  induction h with
  | nil => exact .nil
  | text _ _ ih | literal _ _ ih | ignored _ _ ih => exact ih
  | empty hread _ ih => exact .cons (.empty hread) ih
  | element hread hname hcontent _ _ ih => exact .cons (.element hread hname hcontent) ih

namespace Node

variable {n : Node} {e : Element}

/-- The elements inside of a node are read to the children, in order. -/
theorem Reads.elements (h : n.Reads e) : List.Forall₂ Reads n.elements e.children := by
  cases h with
  | empty _ => exact .nil
  | element _ _ hcontent => exact hcontent.forall₂

/-- Walks over nodes and over elements keep step. -/
theorem forall₂_descend (segments : List String) {ns : List Node} {es : List Element}
    (h : List.Forall₂ Reads ns es) :
    List.Forall₂ Reads (descend segments ns) (Element.descend segments es) := by
  induction segments generalizing ns es with
  | nil => exact h
  | cons segment segments ih =>
      refine ih (List.rel_flatMap h fun n e hne => ?_)
      exact List.rel_filter (fun _ _ hr => hr.answers_iff segment) hne.elements

/-- What a path leads to in the source is what it leads to in the document. -/
theorem Reads.select (h : n.Reads e) (path : String) :
    List.Forall₂ Reads (n.select path) (e.select path) :=
  forall₂_descend _ (.cons h .nil)

/-- The first element that a path leads to. -/
theorem Reads.selectFirst? (h : n.Reads e) {path : String} {m : Node}
    (hm : (n.select path).head? = some m) : ∃ c, e.selectFirst? path = some c ∧ m.Reads c :=
  head?_of_forall₂ (h.select path) hm

end Node

end ModInstall.Markup
