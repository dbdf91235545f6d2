import ModInstall.Condition.Json
import ModInstall.InstallState.Basic

/-! # States in JSON

    A state is an object with the keys `gameVersion`, `managerVersion`,
    `files`, `flags` and `extensions`, each of which may be left out.  A key
    repeated inside one of the maps counts with its last value.  File names are
    put into lower case, entry by entry; the map that they come out of has no
    order of its own, so readers are given one. -/

namespace ModInstall

open Json (Decoder Fields)

namespace Table

variable {α : Type}

/-- A table as JSON. -/
def toJson (encode : α → Json) (t : Table α) : Json :=
  .object (t.entries.map fun e => (e.1, encode e.2))

/-- Reads a table; of a repeated key the last value counts. -/
def decoder (d : Decoder α) : Decoder (Table α) := fun room v =>
  (Decoder.entries d room v).map ofEntries

end Table

namespace InstallState

/-- A state as JSON. -/
def toJson (s : InstallState) : Json :=
  .object [
    ("gameVersion", (s.gameVersion.map Version.toJson).getD .null),
    ("managerVersion", (s.managerVersion.map Version.toJson).getD .null),
    ("files", s.files.toJson fun state => .string state.name),
    ("flags", s.flags.toJson .string),
    ("extensions", s.verdicts.toJson .bool)]

/-- Reads the states of files.  Keys are told apart as written, and the entries
    then set in lower case one after the other, as they come out of that
    map. -/
def filesDecoder (order : Table.Order FileState) : Decoder (Table FileState) := fun room v =>
  (Table.decoder FileState.decoder room v).map fun t => filesOfEntries (order.arrange t.entries)

/-- Reads a state, the files in some order. -/
def decoderIn (order : Table.Order FileState) : Decoder InstallState := fun room v => do
  let f ← Json.fields ["gameVersion", "managerVersion", "files", "flags", "extensions"] room v
  return {
    gameVersion    := ← f.getD "gameVersion" none (.nullable Version.decoder)
    managerVersion := ← f.getD "managerVersion" none (.nullable Version.decoder)
    files          := ← f.getD "files" .empty (filesDecoder order)
    flags          := ← f.getD "flags" .empty (Table.decoder .string)
    verdicts       := ← f.getD "extensions" .empty (Table.decoder .bool) }

/-- Reads a state, the files in the order in which their keys first stand in
    the object.  That is one order of many: the map has none of its own, and
    what holds in every order is said of `decoderIn`. -/
def decoder : Decoder InstallState :=
  decoderIn .firstSet

end InstallState

end ModInstall
