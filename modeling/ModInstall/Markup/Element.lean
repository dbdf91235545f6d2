import ModInstall.Text.Split

/-! # Elements

    A loaded document is a tree of elements.  An element keeps what a reader of
    configurations needs: its name, its attributes and element children in the
    order of the document, the text directly inside it, and, where it has no
    element children, its content as it was written.

    Elements are found by paths such as `patterns/*`: names with `/` between
    them, one for each step down, where `*` stands for any name.  `descend` is
    that walk for a list of segments, and `select` reads the segments off a
    path. -/

namespace ModInstall.Markup

/-- An element of a document.  `attributes` may hold one name twice; the first
    counts.  `innerXml` is the content as written, kept only where there are no
    element children. -/
structure Element where
  name       : String
  attributes : List (String × String) := []
  children   : List Element := []
  text       : String := ""
  innerXml   : Option String := none

namespace Element

mutual

/-- Equality of elements is decided field by field, and of children one by
    one. -/
def decEq : (a b : Element) → Decidable (a = b)
  | ⟨n, as, cs, t, i⟩, ⟨n', as', cs', t', i'⟩ =>
      match decEqList cs cs' with
      | isFalse h => isFalse fun e => h (congrArg children e)
      | isTrue hc =>
          if h : n = n' ∧ as = as' ∧ t = t' ∧ i = i' then
            isTrue (by rw [h.1, h.2.1, hc, h.2.2.1, h.2.2.2])
          else
            isFalse fun e => h ⟨congrArg name e, congrArg attributes e, congrArg text e,
              congrArg innerXml e⟩

/-- Equality of two lists of children. -/
def decEqList : (as bs : List Element) → Decidable (as = bs)
  | [],      []      => isTrue rfl
  | [],      _ :: _  => isFalse fun e => nomatch e
  | _ :: _,  []      => isFalse fun e => nomatch e
  | a :: as, b :: bs =>
      match decEq a b, decEqList as bs with
      | isTrue h,  isTrue hs  => isTrue (by rw [h, hs])
      | isFalse h, _          => isFalse fun e => h (List.cons.inj e).1
      | _,         isFalse hs => isFalse fun e => hs (List.cons.inj e).2

end

instance : DecidableEq Element := decEq

/-- The value of the first attribute with this name. -/
def attribute? (e : Element) (key : String) : Option String :=
  e.attributes.lookup key

/-- The content as written, or the text of an element whose written content was
    not kept. -/
def content (e : Element) : String :=
  e.innerXml.getD e.text

/-- Whether an element answers to a path segment. -/
def answers (segment : String) (e : Element) : Bool :=
  segment == "*" || e.name == segment

/-- The children of some elements that answer to a segment. -/
def stepDown (segment : String) (es : List Element) : List Element :=
  es.flatMap fun e => e.children.filter (answers segment)

/-- The elements that a list of segments leads to from some elements. -/
def descend (segments : List String) (es : List Element) : List Element :=
  segments.foldl (fun es segment => stepDown segment es) es

/-- The segments of a path.  Leading, trailing and doubled separators make
    none. -/
def segments (path : String) : List String :=
  (Text.piecesOf (· == '/') path).filter (· ≠ "")

/-- The descendants that a path leads to, in the order of the document. -/
def select (e : Element) (path : String) : List Element :=
  descend (segments path) [e]

/-- The first descendant that a path leads to. -/
def selectFirst? (e : Element) (path : String) : Option Element :=
  (e.select path).head?

mutual

/-- How many elements a tree has. -/
def size : Element → Nat
  | ⟨_, _, cs, _, _⟩ => 1 + sizeList cs

/-- How many elements some trees have together. -/
def sizeList : List Element → Nat
  | []      => 0
  | e :: es => size e + sizeList es

end

mutual

/-- How many elements lie above each other at most, the root included. -/
def nesting : Element → Nat
  | ⟨_, _, cs, _, _⟩ => 1 + nestingList cs

/-- The deepest nesting among some elements. -/
def nestingList : List Element → Nat
  | []      => 0
  | e :: es => max (nesting e) (nestingList es)

end

mutual

/-- The sum of a measure over all elements of a tree. -/
def total (measure : Element → Nat) : Element → Nat
  | e@⟨_, _, cs, _, _⟩ => measure e + totalList measure cs

/-- The sum of a measure over all elements of some trees. -/
def totalList (measure : Element → Nat) : List Element → Nat
  | []      => 0
  | e :: es => total measure e + totalList measure es

end

end Element

end ModInstall.Markup
