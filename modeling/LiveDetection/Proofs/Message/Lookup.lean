import LiveDetection.Message.Report

/-!
# Looking up names

A name stands for the first property that has it. Whether a message gives a value of a type under a
name, and how it fails to, follows from what the name stands for.
-/

namespace LiveDetection

/-- The type of a header value. -/
def PropertyValue.type : PropertyValue → PropertyType
  | string _ => .string
  | int _ => .int
  | long _ => .long

/-- How looking up a value of one of some types fails, by what was found under the name. -/
def Misses (found : Option PropertyValue) (name : String) (expected : PropertyType)
    (types : List PropertyType) (e : CodecError) : Prop :=
  (found = none ∧ e = .missingProperty name) ∨
    ∃ value, found = some value ∧ value.type ∉ types ∧ e = .wrongPropertyType name expected

@[simp] theorem misses_none {name : String} {expected : PropertyType} {types : List PropertyType}
    {e : CodecError} : Misses none name expected types e ↔ e = .missingProperty name := by
  simp [Misses]

@[simp] theorem misses_some {value : PropertyValue} {name : String} {expected : PropertyType}
    {types : List PropertyType} {e : CodecError} :
    Misses (some value) name expected types e ↔
      value.type ∉ types ∧ e = .wrongPropertyType name expected := by
  simp [Misses]

/-- The first property of a name has a value. -/
def FirstIs (properties : List Property) (name : String) (value : PropertyValue) : Prop :=
  ∃ before behind, properties = before ++ ⟨name, value⟩ :: behind ∧ ∀ p ∈ before, p.name ≠ name

namespace Message

variable {m : Message} {name : String} {e : CodecError}

theorem string_eq_ok_iff {value : String} :
    m.string name = .ok value ↔ m.property? name = some (.string value) := by
  rw [string, require]
  cases m.property? name with
  | none => simp [bind, Except.bind]
  | some found => cases found <;> simp [bind, Except.bind]

theorem string_eq_error_iff :
    m.string name = .error e ↔ Misses (m.property? name) name .string [.string] e := by
  rw [string, require]
  cases m.property? name with
  | none => simp [bind, Except.bind, eq_comm]
  | some found => cases found <;> simp [bind, Except.bind, PropertyValue.type, eq_comm]

theorem int_eq_ok_iff {value : Int32} :
    m.int name = .ok value ↔ m.property? name = some (.int value) := by
  rw [int, require]
  cases m.property? name with
  | none => simp [bind, Except.bind]
  | some found => cases found <;> simp [bind, Except.bind]

theorem int_eq_error_iff :
    m.int name = .error e ↔ Misses (m.property? name) name .int [.int] e := by
  rw [int, require]
  cases m.property? name with
  | none => simp [bind, Except.bind, eq_comm]
  | some found => cases found <;> simp [bind, Except.bind, PropertyValue.type, eq_comm]

/-- A 32-bit number widens to the same number. -/
theorem long_eq_ok_iff {value : Int64} :
    m.long name = .ok value ↔ m.property? name = some (.long value) ∨
      ∃ narrow : Int32, m.property? name = some (.int narrow) ∧ value.toInt = narrow.toInt := by
  rw [long, require]
  cases m.property? name with
  | none => simp [bind, Except.bind]
  | some found =>
    cases found with
    | string text => simp [bind, Except.bind]
    | long wide => simp [bind, Except.bind]
    | int narrow =>
      simp [bind, Except.bind, ← Int64.toInt_inj, eq_comm]

theorem long_eq_error_iff :
    m.long name = .error e ↔ Misses (m.property? name) name .long [.long, .int] e := by
  rw [long, require]
  cases m.property? name with
  | none => simp [bind, Except.bind, eq_comm]
  | some found => cases found <;> simp [bind, Except.bind, PropertyValue.type, eq_comm]

theorem property?_eq_some_iff {value : PropertyValue} :
    m.property? name = some value ↔ FirstIs m.properties name value := by
  rw [property?, Option.map_eq_some_iff]
  constructor
  · rintro ⟨p, hfind, rfl⟩
    obtain ⟨hname, before, behind, hall, hbefore⟩ := List.find?_eq_some_iff_append.mp hfind
    obtain rfl : p.name = name := by simpa using hname
    exact ⟨before, behind, hall, by simpa using hbefore⟩
  · rintro ⟨before, behind, hall, hbefore⟩
    refine ⟨⟨name, value⟩, List.find?_eq_some_iff_append.mpr ?_, rfl⟩
    exact ⟨by simp, before, behind, hall, by simpa using hbefore⟩

theorem property?_eq_none_iff :
    m.property? name = none ↔ ∀ p ∈ m.properties, p.name ≠ name := by
  simp [property?]

/-- A message names a job by the first property of each of two names. -/
theorem job_eq_ok_iff {job : JobIdentity} :
    m.job = .ok job ↔ FirstIs m.properties Header.jobName (.string job.name) ∧
      FirstIs m.properties Header.jobNumber (.int job.number) := by
  rw [← property?_eq_some_iff, ← property?_eq_some_iff, ← string_eq_ok_iff, ← int_eq_ok_iff,
    Message.job]
  obtain ⟨name, number⟩ := job
  cases m.string Header.jobName with
  | error e => simp [bind, Except.bind]
  | ok name' => cases m.int Header.jobNumber <;> simp [bind, Except.bind, pure, Except.pure]

end Message

end LiveDetection
