import ModInstall.Package.Basic

/-! # Names of values

    The values of an enumeration are written as names.  Each is found by its
    own name and by no other text, so what is read off a name is the value that
    writes it. -/

namespace ModInstall

/-- Where each value is found by its own name, it is found by no other. -/
theorem find?_name_eq_some_iff {α : Type} {all : List α} {name : α → String}
    (hall : ∀ a, all.find? (name · == name a) = some a) {text : String} {a : α} :
    all.find? (name · == text) = some a ↔ text = name a := by
  constructor
  · intro h
    have hn := List.find?_some h
    exact (beq_iff_eq.mp hn).symm
  · rintro rfl
    exact hall a

variable {text : String}

/-- An operator is found by its name. -/
theorem Operator.ofName?_eq_some_iff {o : Operator} :
    Operator.ofName? text = Option.some o ↔ text = o.name :=
  find?_name_eq_some_iff fun o => by cases o <;> rfl

/-- A file state is found by its name. -/
theorem FileState.ofName?_eq_some_iff {s : FileState} :
    FileState.ofName? text = some s ↔ text = s.name :=
  find?_name_eq_some_iff fun s => by cases s <;> rfl

/-- A plugin type is found by its name. -/
theorem PluginType.ofName?_eq_some_iff {t : PluginType} :
    PluginType.ofName? text = some t ↔ text = t.name :=
  find?_name_eq_some_iff fun t => by cases t <;> rfl

/-- A group type is found by its name. -/
theorem GroupType.ofName?_eq_some_iff {t : GroupType} :
    GroupType.ofName? text = some t ↔ text = t.name :=
  find?_name_eq_some_iff fun t => by cases t <;> rfl

/-- A file kind is found by its name. -/
theorem FileKind.ofName?_eq_some_iff {k : FileKind} :
    FileKind.ofName? text = some k ↔ text = k.name :=
  find?_name_eq_some_iff fun k => by cases k <;> rfl

end ModInstall
