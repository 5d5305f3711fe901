import LiveDetection.Proofs.Message.Lookup
import Mathlib.Data.List.Induction
import Mathlib.Data.List.Nodup

/-!
# Messages as maps in insertion order

Whatever is set in a message one after the other, every property stays at its place. The first
property of a name has the value that was set last, further properties of the name have the value
that they had, and new names stand at the end in the order in which they came in.
-/

namespace LiveDetection

/-- Something that is set in a message. -/
inductive Assignment where
  | string (name value : String)
  | int (name : String) (value : Int32)
  | long (name : String) (value : Int64)
  | body (bytes : List UInt8)
deriving DecidableEq, Repr

namespace Assignment

/-- Make an assignment in a message. -/
def apply (m : Message) : Assignment → Message
  | string name value => m.setString name value
  | int name value => m.setInt name value
  | long name value => m.setLong name value
  | body bytes => m.setBody bytes

/-- The property that is set. -/
def property? : Assignment → Option Property
  | string name value => some ⟨name, .string value⟩
  | int name value => some ⟨name, .int value⟩
  | long name value => some ⟨name, .long value⟩
  | body _ => none

/-- The body that is set. -/
def body? : Assignment → Option (List UInt8)
  | body bytes => some bytes
  | _ => none

/-- An assignment is of a property or of the body. -/
theorem cases_apply (s : Assignment) (m : Message) :
    (∃ p, s.property? = some p ∧ s.body? = none ∧ s.apply m = m.set p.name p.value) ∨
      ∃ bytes, s.property? = none ∧ s.body? = some bytes ∧ s.apply m = m.setBody bytes := by
  cases s with
  | body bytes => exact .inr ⟨bytes, rfl, rfl, rfl⟩
  | string name value => exact .inl ⟨⟨name, .string value⟩, rfl, rfl, rfl⟩
  | int name value => exact .inl ⟨⟨name, .int value⟩, rfl, rfl, rfl⟩
  | long name value => exact .inl ⟨⟨name, .long value⟩, rfl, rfl, rfl⟩

end Assignment

/-! ## One name -/

/-- The names of properties, in their order. -/
def namesOf (properties : List Property) : List String := properties.map (·.name)

@[simp] theorem namesOf_nil : namesOf [] = [] := rfl

@[simp] theorem namesOf_cons (p : Property) (rest : List Property) :
    namesOf (p :: rest) = p.name :: namesOf rest := rfl

@[simp] theorem namesOf_append (front back : List Property) :
    namesOf (front ++ back) = namesOf front ++ namesOf back := List.map_append

@[simp] theorem length_namesOf (properties : List Property) :
    (namesOf properties).length = properties.length := List.length_map _

/-- The value of the first property of a name. -/
def firstValue? (properties : List Property) (name : String) : Option PropertyValue :=
  (properties.find? fun p => p.name == name).map (·.value)

theorem firstValue?_cons (p : Property) (rest : List Property) (name : String) :
    firstValue? (p :: rest) name =
      if p.name = name then some p.value else firstValue? rest name := by
  by_cases h : p.name = name <;> simp [firstValue?, h]

/-- The first property of a name has the value that the name stands for. -/
theorem firstValue?_of_getElem? {properties : List Property} {i : Nat} {p : Property}
    (h : properties[i]? = some p) (hfirst : p.name ∉ (namesOf properties).take i) :
    firstValue? properties p.name = some p.value := by
  induction properties generalizing i with
  | nil => cases h
  | cons q rest ih =>
    rw [firstValue?_cons]
    cases i with
    | zero =>
      cases h
      rw [if_pos rfl]
    | succ i =>
      rw [namesOf_cons, List.take_succ_cons, List.mem_cons, not_or] at hfirst
      rw [if_neg fun heq => hfirst.1 heq.symm]
      exact ih h hfirst.2

theorem namesOf_setProperty (name : String) (value : PropertyValue) (properties : List Property) :
    namesOf (Message.setProperty name value properties) =
      if name ∈ namesOf properties then namesOf properties
      else namesOf properties ++ [name] := by
  induction properties with
  | nil => simp [Message.setProperty]
  | cons q rest ih =>
    rw [Message.setProperty]
    by_cases hq : q.name = name
    · simp [hq]
    · have hne : ¬ name = q.name := fun heq => hq heq.symm
      simp only [if_neg hq, namesOf_cons, ih, List.mem_cons, hne, false_or]
      split <;> rfl

/-- A property is as it was unless it is the first one of the name that was set. -/
theorem getElem?_of_setProperty {name : String} {value : PropertyValue}
    {properties : List Property} {i : Nat} {p : Property}
    (h : (Message.setProperty name value properties)[i]? = some p)
    (hfurther : p.name = name → name ∈ (namesOf properties).take i) :
    properties[i]? = some p := by
  induction properties generalizing i with
  | nil =>
    cases i with
    | zero =>
      cases h
      cases hfurther rfl
    | succ i => cases h
  | cons q rest ih =>
    simp only [Message.setProperty] at h
    by_cases hq : q.name = name
    · rw [if_pos hq] at h
      cases i with
      | zero =>
        cases h
        cases hfurther rfl
      | succ i => exact h
    · rw [if_neg hq] at h
      cases i with
      | zero => exact h
      | succ i =>
        refine ih h fun heq => ?_
        rcases List.mem_cons.mp (hfurther heq) with hname | hrest
        · exact absurd hname.symm hq
        · exact hrest

/-! ## New names -/

theorem eraseDups_concat (names : List String) (name : String) :
    (names ++ [name]).eraseDups =
      if name ∈ names then names.eraseDups else names.eraseDups ++ [name] := by
  rw [List.eraseDups_append]
  by_cases h : name ∈ names <;> simp [List.removeAll, h, List.eraseDups_cons]

theorem nodup_eraseDups (names : List String) : names.eraseDups.Nodup := by
  induction names using List.reverseRecOn with
  | nil => simp
  | append_singleton front last ih =>
    rw [eraseDups_concat]
    split
    · exact ih
    · next h =>
      refine List.nodup_append.mpr ⟨ih, by simp, ?_⟩
      intro a ha b hb heq
      rw [List.mem_eraseDups] at ha
      rw [List.mem_singleton] at hb
      exact h (hb ▸ heq ▸ ha)

namespace Message

variable {m after : Message} {made : List Assignment} {s : Assignment} {p : Property}

/-- Make assignments in a message, one after the other. -/
def setAll (m : Message) (made : List Assignment) : Message := made.foldl Assignment.apply m

/-- The value that a name was set to last, or the first one that it had in the beginning. -/
def latest? (m : Message) (made : List Assignment) (name : String) : Option PropertyValue :=
  (firstValue? (made.filterMap Assignment.property?).reverse name).or
    (firstValue? m.properties name)

/-- The names that are set and were not there in the beginning, each where it is set first. -/
def newNames (m : Message) (made : List Assignment) : List String :=
  ((namesOf (made.filterMap Assignment.property?)).filter (· ∉ namesOf m.properties)).eraseDups

theorem latest?_concat (h : s.property? = some p) (name : String) :
    m.latest? (made ++ [s]) name =
      if p.name = name then some p.value else m.latest? made name := by
  rw [latest?, List.filterMap_append, List.filterMap_cons_some h, List.filterMap_nil,
    List.reverse_concat, firstValue?_cons]
  split <;> rfl

theorem newNames_concat (h : s.property? = some p) :
    m.newNames (made ++ [s]) =
      if p.name ∈ namesOf m.properties ++ m.newNames made then m.newNames made
      else m.newNames made ++ [p.name] := by
  rw [newNames, List.filterMap_append, List.filterMap_cons_some h, List.filterMap_nil,
    namesOf_append, List.filter_append]
  by_cases hold : p.name ∈ namesOf m.properties
  · simp [hold, newNames]
  · have hnew : List.filter (· ∉ namesOf m.properties) (namesOf [p]) = [p.name] := by simp [hold]
    simp only [hnew, eraseDups_concat, List.mem_append, hold, false_or, newNames,
      List.mem_eraseDups]

/-! ## Assignments one after the other -/

/-- Where the properties of a message stand that assignments made of `m`. -/
structure Arranged (m : Message) (made : List Assignment) (after : Message) : Prop where
  property?_eq : ∀ name, after.property? name = m.latest? made name
  /-- No property is removed, and new names stand at the end. -/
  names_eq : namesOf after.properties = namesOf m.properties ++ m.newNames made
  /-- All but the first property of a name are as they were. -/
  further_eq : ∀ i p, after.properties[i]? = some p → p.name ∈ (namesOf after.properties).take i →
    m.properties[i]? = some p
  body_eq : after.body = (made.filterMap Assignment.body?).getLast?.or m.body

theorem arranged_nil (m : Message) : m.Arranged [] m where
  property?_eq _ := rfl
  names_eq := (List.append_nil _).symm
  further_eq _ _ h _ := h
  body_eq := rfl

theorem Arranged.set (h : m.Arranged made after) (hproperty : s.property? = some p)
    (hbody : s.body? = none) : m.Arranged (made ++ [s]) (after.set p.name p.value) where
  property?_eq name := by
    rw [latest?_concat hproperty]
    by_cases hname : p.name = name
    · rw [if_pos hname, ← hname, property?_set_self]
    · rw [if_neg hname, property?_set_of_ne after p.value fun heq => hname heq.symm, h.property?_eq]
  names_eq := by
    change namesOf (setProperty p.name p.value after.properties) = _
    rw [namesOf_setProperty, newNames_concat hproperty, h.names_eq]
    split
    · rfl
    · rw [List.append_assoc]
  further_eq i q hq hmem := by
    change (setProperty p.name p.value after.properties)[i]? = some q at hq
    change q.name ∈ (namesOf (setProperty p.name p.value after.properties)).take i at hmem
    have hearlier : q.name ∈ (namesOf after.properties).take i := by
      obtain ⟨hi, -⟩ := List.getElem?_eq_some_iff.mp hq
      rw [← length_namesOf] at hi
      rw [namesOf_setProperty] at hmem hi
      split at hmem
      · exact hmem
      · next hnew =>
        rw [if_neg hnew, List.length_append, List.length_singleton] at hi
        rwa [List.take_append_of_le_length (Nat.le_of_lt_succ hi)] at hmem
    exact h.further_eq i q (getElem?_of_setProperty hq fun heq => heq ▸ hearlier) hearlier
  body_eq := by
    rw [List.filterMap_append, List.filterMap_cons_none hbody, List.filterMap_nil, List.append_nil]
    exact h.body_eq

theorem Arranged.setBody {bytes : List UInt8} (h : m.Arranged made after)
    (hproperty : s.property? = none) (hbody : s.body? = some bytes) :
    m.Arranged (made ++ [s]) (after.setBody bytes) where
  property?_eq name := by
    rw [latest?, List.filterMap_append, List.filterMap_cons_none hproperty, List.filterMap_nil,
      List.append_nil]
    exact h.property?_eq name
  names_eq := by
    rw [newNames, List.filterMap_append, List.filterMap_cons_none hproperty, List.filterMap_nil,
      List.append_nil]
    exact h.names_eq
  further_eq := h.further_eq
  body_eq := by
    rw [List.filterMap_append, List.filterMap_cons_some hbody, List.filterMap_nil,
      List.getLast?_concat]
    rfl

theorem arranged_setAll (m : Message) (made : List Assignment) :
    m.Arranged made (m.setAll made) := by
  induction made using List.reverseRecOn with
  | nil => exact arranged_nil m
  | append_singleton front last ih =>
    have hlast : m.setAll (front ++ [last]) = last.apply (m.setAll front) := by
      simp [setAll, List.foldl_append]
    rw [hlast]
    obtain ⟨p, hproperty, hbody, happly⟩ | ⟨bytes, hproperty, hbody, happly⟩ :=
      last.cases_apply (m.setAll front)
    · rw [happly]
      exact ih.set hproperty hbody
    · rw [happly]
      exact ih.setBody hproperty hbody

/-- A message is what assignments make of `m` if it is a map in insertion order in which a name
stands for its first property, and gives the values that were set last. -/
structure Results (m : Message) (made : List Assignment) (after : Message) : Prop
    extends m.Arranged made after where
  /-- The first property of a name has the latest value. -/
  first_eq : ∀ i p, after.properties[i]? = some p → p.name ∉ (namesOf after.properties).take i →
    m.latest? made p.name = some p.value
  string_eq_ok_iff : ∀ name value,
    after.string name = .ok value ↔ m.latest? made name = some (.string value)
  string_eq_error_iff : ∀ name e,
    after.string name = .error e ↔ Misses (m.latest? made name) name .string [.string] e
  int_eq_ok_iff : ∀ name value,
    after.int name = .ok value ↔ m.latest? made name = some (.int value)
  int_eq_error_iff : ∀ name e,
    after.int name = .error e ↔ Misses (m.latest? made name) name .int [.int] e
  /-- A 32-bit number widens to the same number. -/
  long_eq_ok_iff : ∀ name value,
    after.long name = .ok value ↔ m.latest? made name = some (.long value) ∨
      ∃ narrow : Int32, m.latest? made name = some (.int narrow) ∧ value.toInt = narrow.toInt
  long_eq_error_iff : ∀ name e,
    after.long name = .error e ↔ Misses (m.latest? made name) name .long [.long, .int] e

/-- Whatever is set in a message, one after the other, it behaves as a map in insertion order in
which a name stands for its first property. A message that was empty has no name twice. -/
theorem results_setAll (m : Message) (made : List Assignment) :
    m.Results made (m.setAll made) ∧
      (namesOf (empty.setAll made).properties).Nodup := by
  have harranged := arranged_setAll m made
  refine ⟨{ harranged with
    first_eq i p hp hfirst := ?_
    string_eq_ok_iff name value := ?_
    string_eq_error_iff name e := ?_
    int_eq_ok_iff name value := ?_
    int_eq_error_iff name e := ?_
    long_eq_ok_iff name value := ?_
    long_eq_error_iff name e := ?_ }, ?_⟩
  · rw [← harranged.property?_eq]
    exact firstValue?_of_getElem? hp hfirst
  · rw [Message.string_eq_ok_iff, harranged.property?_eq]
  · rw [Message.string_eq_error_iff, harranged.property?_eq]
  · rw [Message.int_eq_ok_iff, harranged.property?_eq]
  · rw [Message.int_eq_error_iff, harranged.property?_eq]
  · rw [Message.long_eq_ok_iff, harranged.property?_eq]
  · rw [Message.long_eq_error_iff, harranged.property?_eq]
  · rw [(arranged_setAll empty made).names_eq]
    exact nodup_eraseDups _

/-- In a message with a name that occurs twice, setting the name changes its first property, also
to another type, and a new name goes to the end. -/
example :
    (setAll ⟨[⟨"a", .int 1⟩, ⟨"b", .int 2⟩, ⟨"a", .int 3⟩], none⟩
      [.string "c" "new", .long "a" 4, .body [], .string "c" "newer", .body [0]]) =
    ⟨[⟨"a", .long 4⟩, ⟨"b", .int 2⟩, ⟨"a", .int 3⟩, ⟨"c", .string "newer"⟩], some [0]⟩ := by
  decide

end Message

end LiveDetection
