import ModInstall.Json.Decoder
import ModInstall.Markup.Document

/-! # Elements in JSON

    An element is an object with its name, attributes, children and text, and
    with its written content where that was kept. -/

namespace ModInstall.Markup

open Json (Decoder Fields)

namespace Element

mutual

/-- An element as JSON. -/
def toJson : Element → Json
  | ⟨name, attributes, children, text, innerXml⟩ =>
      .object ([
        ("name", .string name),
        ("attributes", Json.ofPairs attributes),
        ("children", .array (toJsonList children)),
        ("text", .string text)]
        ++ match innerXml with
          | none         => []
          | some written => [("inner_xml", .string written)])

/-- Some elements as JSON. -/
def toJsonList : List Element → List Json
  | []      => []
  | e :: es => toJson e :: toJsonList es

end

/-- The keys of an element. -/
def keys : List String := ["name", "attributes", "children", "text", "inner_xml"]

/-- Reads an element with these children. -/
def ofFields? (f : Fields) (children : List Element) : Option Element := do
  -- the children take a level of their own
  if f.room = 0 then none
  return {
    name       := ← f.get "name" .string
    attributes := ← f.get "attributes" (.list (.pair .string .string))
    children
    text       := ← f.get "text" .string
    innerXml   := ← f.getD "inner_xml" none (.nullable .string) }

mutual

/-- Reads an element, entering at most `room` levels. -/
def ofJson? (room : Nat) : Json → Option Element
  | .object es => do
      let f ← Json.fields keys room (.object es)
      ofFields? f (← childrenIn? (f.room - 1) es)
  | .array vs => do
      let f ← Json.fields keys room (.array vs)
      ofFields? f (← childrenAt? (f.room - 1) vs)
  | _ => none

/-- Reads some elements, entering at most `room` levels. -/
def listOfJson? (room : Nat) : List Json → Option (List Element)
  | []      => some []
  | v :: vs => do return (← ofJson? room v) :: (← listOfJson? room vs)

/-- Reads the children of an element off its entries, entering at most `room`
    levels below them. -/
def childrenIn? (room : Nat) : List (String × Json) → Option (List Element)
  | []           => none
  | (k, v) :: es =>
      if k = "children" then
        match v with
        | .array vs => listOfJson? room vs
        | _         => none
      else childrenIn? room es

/-- Reads the children of an element that is given as an array: they are its
    third item. -/
def childrenAt? (room : Nat) : List Json → Option (List Element)
  | _ :: _ :: .array vs :: _ => listOfJson? room vs
  | _                        => none

end

/-- Reads an element. -/
def decoder : Decoder Element := ofJson?

end Element

namespace Document

/-- A document as JSON. -/
def toJson (d : Document) : Json :=
  .object [("root", d.root.toJson)]

/-- Reads a document. -/
def decoder : Decoder Document := fun room v => do
  let f ← Json.fields ["root"] room v
  return ⟨← f.get "root" Element.decoder⟩

end Document

end ModInstall.Markup
