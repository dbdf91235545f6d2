import ModInstall.Markup.Attribute
import ModInstall.Markup.Element
import ModInstall.Markup.Lexeme

/-! # Documents

    A document is built from the lexemes of its source, one after the other
    (`Builder.step`), on a stack of the elements that are still open.
    Documents come from strangers: how deep elements may nest is bounded, and a
    start tag that would go deeper ends the reading before its attributes are
    looked at. -/

namespace ModInstall.Markup

/-- What is wrong with the markup of a document. -/
inductive MarkupError
  | lexical (cause : LexicalError)
  | badAttribute (cause : AttributeError)
  | badEntity (cause : EntityError)
  /-- An end tag is not that of the innermost open element. -/
  | mismatchedEnd (expected found : String)
  /-- An end tag stands where nothing is open. -/
  | unmatchedEnd (found : String)
deriving DecidableEq

/-- The wording of wrong markup. -/
def MarkupError.message : MarkupError → String
  | .lexical cause                => cause.message
  | .badAttribute cause           => cause.message
  | .badEntity cause              => cause.message
  | .mismatchedEnd expected found =>
      "ill-formed document: expected `</" ++ expected ++ ">`, but `</" ++ found ++ ">` was found"
  | .unmatchedEnd found           =>
      "ill-formed document: close tag `</" ++ found ++ ">` does not match any open tag"

/-- What is wrong with a document whose markup is in order. -/
inductive Malformation
  | manyRoots
  | unclosed (name : String)
  | noRoot
deriving DecidableEq

/-- The wording of a malformation. -/
def Malformation.message : Malformation → String
  | .manyRoots     => "document has more than one root element"
  | .unclosed name => "element '" ++ name ++ "' is not closed"
  | .noRoot        => "document has no root element"

/-- Why a document cannot be loaded. -/
inductive DocumentError
  | markup (cause : MarkupError)
  | malformed (cause : Malformation)
  | tooDeep (limit : Nat)
deriving DecidableEq

/-- A loaded document. -/
structure Document where
  root : Element
deriving DecidableEq

/-- An element whose end tag has not come yet: its full name and attributes,
    its children so far, last child first, its text so far, and what has been
    written in it since its start tag. -/
structure OpenElement where
  fullName   : List Char
  attributes : List (String × String)
  children   : List Element := []
  text       : String := ""
  written    : String := ""

namespace OpenElement

/-- The name without its prefix. -/
def name (o : OpenElement) : String :=
  String.ofList (localName o.fullName)

/-- The element that an end tag makes of an open one. -/
def close (o : OpenElement) : Element where
  name       := o.name
  attributes := o.attributes
  children   := o.children.reverse
  text       := o.text
  innerXml   := if o.children.isEmpty then some o.written else none

/-- Notes what a lexeme adds: its source to what is written, and `text` to the
    text. -/
def add (o : OpenElement) (l : Lexeme) (text : List Char) : OpenElement :=
  { o with text := o.text ++ String.ofList text, written := o.written ++ String.ofList l.source }

end OpenElement

/-- A document that is being built: the open elements, innermost first, and the
    finished root. -/
structure Builder where
  stack : List OpenElement := []
  root  : Option Element := none

namespace Builder

/-- The name in a start tag. -/
def tagName (tag : List Char) : List Char :=
  tag.takeWhile (!isSpace ·)

/-- The name in an end tag: white space behind it is cut off. -/
def endName (tag : List Char) : List Char :=
  if tag.all isSpace then tag else (tag.reverse.dropWhile isSpace).reverse

/-- Hands a finished element to the innermost open one, or makes it the
    root. -/
def attach (b : Builder) (e : Element) : Except DocumentError Builder :=
  match b.stack, b.root with
  | o :: os, _   => .ok { b with stack := { o with children := e :: o.children } :: os }
  | [], none     => .ok { b with root := some e }
  | [], some _   => .error (.malformed .manyRoots)

/-- The element that a start tag opens, if the nesting allows for one more. -/
def start (limit : Nat) (b : Builder) (tag : List Char) : Except DocumentError OpenElement :=
  if limit ≤ b.stack.length then .error (.tooDeep limit)
  else do
    let attributes ← (Attribute.read tag).mapError (.markup ∘ .badAttribute)
    return { fullName := tagName tag, attributes }

/-- Builds one lexeme into a document. -/
def step (limit : Nat) (b : Builder) : Lexeme → Except DocumentError Builder
  | .openTag tag => do
      let o ← b.start limit tag
      return { b with stack := o :: b.stack }
  | .emptyTag tag => do
      let o ← b.start limit tag
      b.attach o.close
  | .closeTag tag =>
      let found := endName tag
      match b.stack with
      | [] => .error (.markup (.unmatchedEnd (String.ofList found)))
      | o :: os =>
          if o.fullName = found then { b with stack := os }.attach o.close
          else
            .error (.markup (.mismatchedEnd (String.ofList o.fullName) (String.ofList found)))
  | .text run =>
      match b.stack with
      | []      => .ok b
      | o :: os => do
          let text ← (unescape run).mapError (.markup ∘ .badEntity)
          return { b with stack := o.add (.text run) text :: os }
  | .literal content =>
      match b.stack with
      | []      => .ok b
      | o :: os => .ok { b with stack := o.add (.literal content) content :: os }
  | .ignored written =>
      match b.stack with
      | []      => .ok b
      | o :: os => .ok { b with stack := o.add (.ignored written) [] :: os }

/-- The document at the end of the source: nothing may be open, and there must
    be a root. -/
def finish (b : Builder) : Except DocumentError Document :=
  match b.stack, b.root with
  | o :: _, _      => .error (.malformed (.unclosed o.name))
  | [], none       => .error (.malformed .noRoot)
  | [], some root  => .ok ⟨root⟩

end Builder

namespace Document

/-- How deep elements may nest unless one says otherwise, the root counting as
    one level. -/
def defaultDepthLimit : Nat := 256

/-- A source without the byte order marks in front of it. -/
def withoutMarks (source : List Char) : List Char :=
  source.dropWhile (· == '\uFEFF')

/-- Loads a document from a source without byte order marks. -/
def build (limit : Nat) (source : List Char) : Except DocumentError Document := do
  let (ls, fault) := lexemes source
  let b ← ls.foldlM (Builder.step limit) {}
  match fault with
  | some e => throw (.markup (.lexical e))
  | none   => b.finish

/-- Loads a document from its source, elements nested at most `limit` deep. -/
def parse (limit : Nat) (source : String) : Except DocumentError Document :=
  build limit (withoutMarks source.toList)

/-- The elements that a path leads to.  A leading `/` anchors the path above
    the root, so that its first segment must answer to the root; without it the
    path starts below the root. -/
def select (d : Document) (path : String) : List Element :=
  match path.toList with
  | '/' :: cs =>
      let first := String.ofList (cs.takeWhile (· != '/'))
      if d.root.answers first then d.root.select (String.ofList (cs.dropWhile (· != '/'))) else []
  | _ => d.root.select path

/-- The first element that a path leads to. -/
def selectFirst? (d : Document) (path : String) : Option Element :=
  (d.select path).head?

end Document

end ModInstall.Markup
