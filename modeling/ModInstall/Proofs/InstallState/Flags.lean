import ModInstall.InstallState.Basic
import ModInstall.Proofs.Table

/-! # Flags of a state

    Plugins that are chosen write their flags one after the other, so what a
    flag holds afterwards is the last value written to it, and whatever else
    the state knows is untouched.  `lastValue` is that last value, read off the
    list of writes from behind. -/

namespace ModInstall

namespace InstallState

/-- The last value that a list of flags gives to a name. -/
def lastValue (flags : List ConditionFlag) (name : String) : Option String :=
  (flags.reverse.find? (·.name == name)).map (·.value)

variable {s : InstallState} {name : String}

/-- Of two runs of flags, the later one counts where it sets the name. -/
theorem lastValue_append (fs gs : List ConditionFlag) :
    lastValue (fs ++ gs) name = (lastValue gs name).or (lastValue fs name) := by
  rw [lastValue, List.reverse_append, List.find?_append, Option.map_or]
  rfl

theorem lastValue_singleton (f : ConditionFlag) :
    lastValue [f] name = if name = f.name then some f.value else none := by
  by_cases h : name = f.name
  · simp [lastValue, h]
  · simp [lastValue, h, Ne.symm h]

/-- A name that no flag has gets no value. -/
theorem lastValue_eq_none {flags : List ConditionFlag} (h : ∀ f ∈ flags, f.name ≠ name) :
    lastValue flags name = none := by
  rw [lastValue, Option.map_eq_none_iff, List.find?_eq_none]
  intro f hf
  exact fun he => h f (List.mem_reverse.mp hf) (beq_iff_eq.mp he)

/-- Setting a flag changes this flag and no other. -/
theorem flagValue_setFlag (flag value : String) :
    (s.setFlag flag value).flagValue name = if name = flag then some value else s.flagValue name :=
  Table.find?_set s.flags

/-- The last value is the first that is met from the end. -/
theorem lastValue_eq_lookup (flags : List ConditionFlag) :
    lastValue flags name = (flags.map fun f => (f.name, f.value)).reverse.lookup name := by
  rw [lastValue, ← List.map_reverse]
  induction flags.reverse with
  | nil => rfl
  | cons f fs ih =>
      rw [List.find?_cons, List.map_cons, Table.lookup_cons_eq, ← ih]
      by_cases h : name = f.name
      · rw [if_pos h, beq_iff_eq.mpr h.symm]
        rfl
      · rw [if_neg h, beq_false_of_ne (Ne.symm h)]

/-- Flags that are set one after the other are set in the table of flags, and
    nothing else is. -/
theorem foldl_setFlag_eq (s : InstallState) (flags : List ConditionFlag) :
    flags.foldl (fun s f => s.setFlag f.name f.value) s
      = { s with flags := s.flags.setAll (flags.map fun f => (f.name, f.value)) } := by
  induction flags generalizing s with
  | nil => rfl
  | cons f fs ih => exact ih (s.setFlag f.name f.value)

/-- Writes that follow one another leave the last value, or what was there. -/
theorem flagValue_foldl_setFlag (s : InstallState) (flags : List ConditionFlag) :
    (flags.foldl (fun s f => s.setFlag f.name f.value) s).flagValue name
      = (lastValue flags name).or (s.flagValue name) := by
  rw [foldl_setFlag_eq, lastValue_eq_lookup]
  exact Table.find?_setAll s.flags _

/-- Choosing plugins sets their flags, one after the other. -/
theorem foldl_choose_eq_foldl_setFlag (s : InstallState) (ps : List Plugin) :
    ps.foldl choose s
      = (ps.flatMap (·.flags)).foldl (fun s f => s.setFlag f.name f.value) s := by
  rw [List.foldl_flatMap]
  rfl

/-- A flag holds the last value that the chosen plugins have given it, or what
    it held before. -/
theorem flagValue_foldl_choose (s : InstallState) (ps : List Plugin) :
    (ps.foldl choose s).flagValue name
      = (lastValue (ps.flatMap (·.flags)) name).or (s.flagValue name) := by
  rw [foldl_choose_eq_foldl_setFlag, flagValue_foldl_setFlag]

/-- Choosing plugins changes flags and nothing else. -/
theorem foldl_choose_eq (s : InstallState) (ps : List Plugin) :
    ps.foldl choose s = { s with flags := (ps.foldl choose s).flags } := by
  rw [foldl_choose_eq_foldl_setFlag, foldl_setFlag_eq]

/-- Choosing a plugin leaves all but the flags as it is. -/
theorem choose_eq (s : InstallState) (plugin : Plugin) :
    s.choose plugin = { s with flags := (s.choose plugin).flags } :=
  foldl_choose_eq s [plugin]

end InstallState

end ModInstall
