import ModInstall.Condition.Basic
import ModInstall.Json.Decoder

/-! # Conditions in JSON

    A version is its text.  A predicate is an object whose key `predicate`
    names it; a group is an object with an operator and its members.  A member
    bears no mark of which of the two it is: it is a predicate if it reads as
    one, and a group otherwise.  Since that takes reading it twice, a member is
    first taken in as a whole: everything in it counts towards the nesting, and
    nothing in it may be unreadable. -/

namespace ModInstall

open Json (Decoder Fields)

/-- A version as JSON. -/
def Version.toJson (v : Version) : Json :=
  .string v.display

/-- Reads a version. -/
def Version.decoder : Decoder Version :=
  .parsed Version.parse?

/-- Reads a file state. -/
def FileState.decoder : Decoder FileState :=
  .named FileState.ofName?

namespace Predicate

/-- The names of the predicates in JSON, in the order of their numbers. -/
def tags : List String :=
  ["GameVersionAtLeast", "ManagerVersionAtLeast", "FileState", "FlagEquals", "Extension"]

/-- A predicate as JSON. -/
def toJson : Predicate → Json
  | .gameVersion wanted =>
      .object [("predicate", .string "GameVersionAtLeast"), ("version", wanted.toJson)]
  | .managerVersion wanted =>
      .object [("predicate", .string "ManagerVersionAtLeast"), ("version", wanted.toJson)]
  | .file name state =>
      .object [("predicate", .string "FileState"), ("file", .string name),
        ("state", .string state.name)]
  | .flag name value =>
      .object [("predicate", .string "FlagEquals"), ("flag", .string name),
        ("value", .string value)]
  | .foreign test =>
      .object [("predicate", .string "Extension"), ("kind", .string test.kind),
        ("attributes", Json.ofPairs test.attributes), ("text", .string test.text)]

/-- Reads the state in a predicate; as the value of its name an empty object
    will do for null. -/
def stateDecoder : Decoder FileState
  | _, .object [(s, .object [])] => FileState.ofName? s
  | room, v                      => FileState.decoder room v

/-- Reads the predicate with a tag, off a value that has been taken in as a
    whole. -/
def ofTagged? (tag : String) (v : Json) : Option Predicate := do
  let known (keys : List String) := Json.fields ("predicate" :: keys) v.nesting v
  if tag = "GameVersionAtLeast" then
    let f ← known ["version"]
    return .gameVersion (← f.get "version" Version.decoder)
  else if tag = "ManagerVersionAtLeast" then
    let f ← known ["version"]
    return .managerVersion (← f.get "version" Version.decoder)
  else if tag = "FileState" then
    let f ← known ["file", "state"]
    return .fileIs (← f.get "file" .string) (← f.get "state" stateDecoder)
  else if tag = "FlagEquals" then
    let f ← known ["flag", "value"]
    return .flag (← f.get "flag" .string) (← f.get "value" .string)
  else if tag = "Extension" then
    let f ← known ["kind", "attributes", "text"]
    let attributes ← f.get "attributes" (.list (.pair .string .string))
    return .foreign ⟨← f.get "kind" .string, attributes, ← f.get "text" .string⟩
  else none

/-- The tag that a value of the key `predicate` stands for, inside a group: its
    name or its number. -/
def tagOrNumber? : Json → Option String
  | .string s       => some s
  | .int (.ofNat n) => tags[n]?
  | _               => none

/-- The tag that a value of the key `predicate` stands for, anywhere else: its
    name. -/
def tagName? : Json → Option String
  | .string s => some s
  | _         => none

/-- Reads a predicate off a value that has been taken in as a whole.  Of an
    array the first item is the tag. -/
def ofJson? (tag? : Json → Option String) (v : Json) : Option Predicate :=
  match v with
  | .object es      => ((es.lookup "predicate").bind tag?).bind fun tag => ofTagged? tag v
  | .array (t :: _) => (tag? t).bind fun tag => ofTagged? tag v
  | _               => none

/-- Reads a predicate. -/
def decoder : Decoder Predicate := fun room v =>
  if v.fits room then ofJson? tagName? v else none

end Predicate

namespace Condition

mutual

/-- A condition as JSON. -/
def toJson : Condition → Json
  | .atom p     => p.toJson
  | .group o cs =>
      .object [("operator", .string o.name), ("dependencies", .array (toJsonList cs))]

/-- Some conditions as JSON. -/
def toJsonList : List Condition → List Json
  | []      => []
  | c :: cs => toJson c :: toJsonList cs

end

/-- Reads the operator of a group off its entries. -/
def operatorIn? (es : List (String × Json)) : Option Operator :=
  (es.lookup "operator").bind (Decoder.named Operator.ofName? 1)

/-- Reads the operator of a group that is given as an array. -/
def operatorAt? (vs : List Json) : Option Operator :=
  vs.head?.bind (Decoder.named Operator.ofName? 1)

mutual

/-- Reads a condition off a value that has been taken in as a whole. -/
def ofJson? : Json → Option Condition
  | .object es =>
      match Predicate.ofJson? Predicate.tagOrNumber? (.object es), membersIn? es with
      | some p, _          => some (.atom p)
      | none,   none       => none
      | none,   some cs    =>
          if Json.occurOnce ["operator", "dependencies"] es then
            (operatorIn? es).map fun o => .group o cs
          else none
  | .array vs =>
      match Predicate.ofJson? Predicate.tagOrNumber? (.array vs), membersAt? vs with
      | some p, _       => some (.atom p)
      | none,   none    => none
      | none,   some cs => (operatorAt? vs).map fun o => .group o cs
  | _ => none

/-- Reads some conditions. -/
def listOfJson? : List Json → Option (List Condition)
  | []      => some []
  | v :: vs =>
      match ofJson? v, listOfJson? vs with
      | some c, some cs => some (c :: cs)
      | _,      _       => none

/-- Reads the members of a group off its entries. -/
def membersIn? : List (String × Json) → Option (List Condition)
  | []           => none
  | (k, v) :: es =>
      if k = "dependencies" then
        match v with
        | .array vs => listOfJson? vs
        | _         => none
      else membersIn? es

/-- Reads the members of a group that is given as an array of two items. -/
def membersAt? : List Json → Option (List Condition)
  | [_, .array vs] => listOfJson? vs
  | _              => none

end

/-- Reads a condition. -/
def decoder : Decoder Condition := fun room v =>
  if v.fits room then ofJson? v else none

end Condition

namespace Requirement

/-- A requirement as JSON. -/
def toJson (r : Requirement) : Json :=
  r.toCondition.toJson

/-- Reads a requirement. -/
def decoder : Decoder Requirement := fun room v => do
  let f ← Json.fields ["operator", "dependencies"] room v
  let operator ← f.get "operator" (.named Operator.ofName?)
  let members ← f.get "dependencies" (.list Condition.decoder)
  return { operator, members }

end Requirement

end ModInstall
