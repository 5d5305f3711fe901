import LiveDetection.Json.Printer
import LiveDetection.Json.Reader
import LiveDetection.Proofs.Json.Number
import LiveDetection.Proofs.Json.Text

/-!
# JSON values read back

A value is well formed when its texts and numbers are. A well-formed value is read as it was
written, whatever follows it that does not go on with a number, and its text is a single line.
-/

namespace LiveDetection.Json

/-- A value that is read as it is written. -/
inductive Value.WellFormed : Value → Prop where
  | null : WellFormed .null
  | boolean (value : Bool) : WellFormed (.boolean value)
  | number {n : Number} (h : n.WellFormed) : WellFormed (.number n)
  | text {units : List TextUnit} (h : ∀ u ∈ units, u.WellFormed) : WellFormed (.text units)
  | array {elements : List Value} (h : ∀ v ∈ elements, WellFormed v) :
    WellFormed (.array elements)
  | object {members : List (List TextUnit × Value)}
    (hnames : ∀ m ∈ members, ∀ u ∈ m.1, u.WellFormed) (hvalues : ∀ m ∈ members, WellFormed m.2) :
    WellFormed (.object members)

theorem skipGap_cons {c : Char} (h : isGap c = false) (rest : List Char) :
    skipGap (c :: rest) = c :: rest := by
  rw [skipGap, List.dropWhile_cons_of_neg (by simp [h])]

/-! ## How values begin -/

/-- A character that numbers begin with, their sign or a digit. -/
def IsNumberHead (c : Char) : Prop := c = '-' ∨ ∃ d < 10, c = digitChar d

theorem exists_writeNumber_eq_cons {n : Number} (h : n.WellFormed) :
    ∃ c tail, writeNumber n = c :: tail ∧ IsNumberHead c := by
  obtain ⟨negative, whole, fraction, exponent⟩ := n
  obtain ⟨d, digits, rfl⟩ := List.exists_cons_of_ne_nil h.whole_ne_nil
  cases negative with
  | true => exact ⟨'-', _, rfl, .inl rfl⟩
  | false =>
    have hd : d < 10 := h.areDigits_whole d (by simp)
    exact ⟨digitChar d, _, rfl, .inr ⟨d, hd, rfl⟩⟩

/-- No other value, no bracket and no gap begins as a number does. -/
theorem IsNumberHead.not_mem {c : Char} (h : IsNumberHead c) :
    isGap c = false ∧ c ∉ ['n', 't', 'f', '"', '[', '{', ']'] := by
  have hdigits : ∀ d < 10, isGap (digitChar d) = false ∧
      digitChar d ∉ ['n', 't', 'f', '"', '[', '{', ']'] := by decide
  rcases h with rfl | ⟨d, hd, rfl⟩
  · decide
  · exact hdigits d hd

/-- A value begins with no gap and no closing bracket. -/
theorem exists_writeValue_eq_cons {v : Value} (h : v.WellFormed) :
    ∃ c tail, writeValue v = c :: tail ∧ isGap c = false ∧ c ≠ ']' := by
  cases h with
  | null => exact ⟨'n', _, by rw [writeValue], by decide, by decide⟩
  | boolean value =>
    cases value with
    | true => exact ⟨'t', _, by rw [writeValue], by decide, by decide⟩
    | false => exact ⟨'f', _, by rw [writeValue], by decide, by decide⟩
  | number h =>
    obtain ⟨c, tail, htail, hc⟩ := exists_writeNumber_eq_cons h
    obtain ⟨hgap, hother⟩ := hc.not_mem
    exact ⟨c, tail, by rw [writeValue, htail], hgap, fun hclose => hother (by simp [hclose])⟩
  | text _ => exact ⟨'"', _, by rw [writeValue, writeUnits, List.cons_append], by decide, by decide⟩
  | array _ => exact ⟨'[', _, by rw [writeValue], by decide, by decide⟩
  | object _ _ => exact ⟨'{', _, by rw [writeValue], by decide, by decide⟩

theorem writeElements_cons (v : Value) (vs : List Value) :
    writeElements (v :: vs) =
      writeValue v ++ if vs = [] then [']'] else ',' :: writeElements vs := by
  cases vs <;> simp [writeElements]

theorem writeMembers_cons (m : List TextUnit × Value) (ms : List (List TextUnit × Value)) :
    writeMembers (m :: ms) = writeUnits m.1 ++ ':' ::
      (writeValue m.2 ++ if ms = [] then ['}'] else ',' :: writeMembers ms) := by
  cases ms <;> simp [writeMembers]

/-! ## Reading -/

/-- A value is read as it was written by a reader with fuel for its length. -/
def ReadsBack (v : Value) : Prop :=
  ∀ fuel rest, 2 * (writeValue v).length ≤ fuel → EndsNumber rest →
    readValue fuel (writeValue v ++ rest) = some (v, rest)

/-- One or more elements that are read back are read up to their bracket. -/
theorem readElements_writeElements_append {v : Value} {vs : List Value}
    (h : ∀ w ∈ v :: vs, ReadsBack w) {fuel : Nat}
    (hfuel : 2 * (writeElements (v :: vs)).length ≤ fuel) (rest : List Char) :
    readElements fuel (writeElements (v :: vs) ++ rest) = some (v :: vs, rest) := by
  -- The reader of an element has one unit of fuel less than the reader of the elements. With two
  -- units for each character, the comma or the bracket behind the element makes up for it.
  induction vs generalizing v fuel with
  | nil =>
    simp only [writeElements_cons, if_true, List.length_append, List.length_singleton] at hfuel
    obtain ⟨fuel, rfl⟩ := Nat.exists_eq_add_of_lt (show 0 < fuel by omega)
    have hfirst := h v (by simp) fuel (']' :: rest) (by omega) (endsNumber_cons (by simp) rest)
    simp [readElements, writeElements_cons, hfirst, skipGap_cons (show isGap ']' = false by decide)]
  | cons w vs ih =>
    rw [writeElements_cons, if_neg (by simp)] at hfuel ⊢
    simp only [List.length_append, List.length_cons] at hfuel
    obtain ⟨fuel, rfl⟩ := Nat.exists_eq_add_of_lt (show 0 < fuel by omega)
    have hfirst := h v (by simp) fuel (',' :: (writeElements (w :: vs) ++ rest)) (by omega)
      (endsNumber_cons (by simp) _)
    have hrest : readElements fuel (writeElements (w :: vs) ++ rest) = some (w :: vs, rest) :=
      ih (fun u hu => h u (List.mem_cons_of_mem v hu)) (by omega)
    simp [readElements, hfirst, skipGap_cons (show isGap ',' = false by decide), hrest]

/-- One or more members that are read back are read up to their brace. -/
theorem readMembers_writeMembers_append {m : List TextUnit × Value}
    {ms : List (List TextUnit × Value)} (hnames : ∀ n ∈ m :: ms, ∀ u ∈ n.1, u.WellFormed)
    (hvalues : ∀ n ∈ m :: ms, ReadsBack n.2) {fuel : Nat}
    (hfuel : 2 * (writeMembers (m :: ms)).length ≤ fuel) (rest : List Char) :
    readMembers fuel (writeMembers (m :: ms) ++ rest) = some (m :: ms, rest) := by
  induction ms generalizing m fuel with
  | nil =>
    simp only [writeMembers_cons, if_true, List.length_append, List.length_cons,
      List.length_nil] at hfuel
    obtain ⟨fuel, rfl⟩ := Nat.exists_eq_add_of_lt (show 0 < fuel by omega)
    have hname := readUnits_flatMap_writeUnit (hnames m (by simp))
      (':' :: (writeValue m.2 ++ '}' :: rest))
    have hvalue := hvalues m (by simp) fuel ('}' :: rest) (by omega)
      (endsNumber_cons (by simp) rest)
    simp [readMembers, writeMembers_cons, writeUnits, hname, hvalue,
      skipGap_cons (show isGap '"' = false by decide),
      skipGap_cons (show isGap ':' = false by decide),
      skipGap_cons (show isGap '}' = false by decide)]
  | cons n ms ih =>
    rw [writeMembers_cons, if_neg (by simp)] at hfuel ⊢
    simp only [List.length_append, List.length_cons] at hfuel
    obtain ⟨fuel, rfl⟩ := Nat.exists_eq_add_of_lt (show 0 < fuel by omega)
    have hname := readUnits_flatMap_writeUnit (hnames m (by simp))
      (':' :: (writeValue m.2 ++ ',' :: (writeMembers (n :: ms) ++ rest)))
    have hvalue := hvalues m (by simp) fuel (',' :: (writeMembers (n :: ms) ++ rest)) (by omega)
      (endsNumber_cons (by simp) _)
    have hrest : readMembers fuel (writeMembers (n :: ms) ++ rest) = some (n :: ms, rest) :=
      ih (fun k hk => hnames k (List.mem_cons_of_mem m hk))
        (fun k hk => hvalues k (List.mem_cons_of_mem m hk)) (by omega)
    simp [readMembers, writeUnits, hname, hvalue, hrest,
      skipGap_cons (show isGap '"' = false by decide),
      skipGap_cons (show isGap ':' = false by decide),
      skipGap_cons (show isGap ',' = false by decide)]

/-- A number at the front is read as a value. -/
theorem readValue_writeNumber_append {n : Number} (h : n.WellFormed) (fuel : Nat)
    {rest : List Char} (hrest : EndsNumber rest) :
    readValue (fuel + 1) (writeNumber n ++ rest) = some (.number n, rest) := by
  have hread := readNumber_writeNumber_append h hrest
  obtain ⟨c, tail, htail, hc⟩ := exists_writeNumber_eq_cons h
  obtain ⟨hgap, hother⟩ := hc.not_mem
  rw [htail, List.cons_append] at hread ⊢
  rw [readValue, skipGap_cons hgap]
  split <;> simp_all

/-- A value has a first character, so the fuel for it is not used up. -/
theorem readsBack_of_succ {v : Value} (h : v.WellFormed)
    (hread : ∀ fuel rest, 2 * (writeValue v).length ≤ fuel + 1 → EndsNumber rest →
      readValue (fuel + 1) (writeValue v ++ rest) = some (v, rest)) : ReadsBack v := by
  intro fuel rest hfuel hrest
  obtain ⟨c, tail, hcons, -⟩ := exists_writeValue_eq_cons h
  obtain ⟨fuel, rfl⟩ : ∃ k, fuel = k + 1 := by
    rw [hcons, List.length_cons] at hfuel
    exact ⟨fuel - 1, by omega⟩
  exact hread fuel rest hfuel hrest

/-- The elements of an array are read when each of them is. -/
theorem readValue_writeArray_append {elements : List Value}
    (hwell : ∀ v ∈ elements, v.WellFormed) (h : ∀ v ∈ elements, ReadsBack v) {fuel : Nat}
    (hfuel : 2 * (writeElements elements).length ≤ fuel) (rest : List Char) :
    readValue (fuel + 1) ('[' :: writeElements elements ++ rest) =
      some (.array elements, rest) := by
  rw [List.cons_append, readValue, skipGap_cons (by decide)]
  cases elements with
  | nil => simp [writeElements, skipGap_cons (show isGap ']' = false by decide)]
  | cons v vs =>
    have hread := readElements_writeElements_append h hfuel rest
    obtain ⟨c, tail, hcons, hgap, hclose⟩ := exists_writeValue_eq_cons (hwell v (by simp))
    rw [writeElements_cons, hcons] at hread ⊢
    simp only [List.cons_append, List.append_assoc] at hread ⊢
    rw [skipGap_cons hgap]
    simp [hclose, hread]

/-- The members of an object are read when the value of each of them is. -/
theorem readValue_writeObject_append {members : List (List TextUnit × Value)}
    (hnames : ∀ m ∈ members, ∀ u ∈ m.1, u.WellFormed) (hvalues : ∀ m ∈ members, ReadsBack m.2)
    {fuel : Nat} (hfuel : 2 * (writeMembers members).length ≤ fuel) (rest : List Char) :
    readValue (fuel + 1) ('{' :: writeMembers members ++ rest) =
      some (.object members, rest) := by
  rw [List.cons_append, readValue, skipGap_cons (by decide)]
  cases members with
  | nil => simp [writeMembers, skipGap_cons (show isGap '}' = false by decide)]
  | cons m ms =>
    have hread := readMembers_writeMembers_append hnames hvalues hfuel rest
    rw [writeMembers_cons, writeUnits] at hread ⊢
    simp only [List.cons_append, List.append_assoc, List.nil_append] at hread ⊢
    rw [skipGap_cons (by decide)]
    simp [hread]

/-- A well-formed value is read as it was written. -/
theorem readsBack_of_wellFormed {v : Value} (h : v.WellFormed) : ReadsBack v := by
  induction h with
  | null =>
    refine readsBack_of_succ .null fun fuel rest _ _ => ?_
    simp [readValue, writeValue, skipGap_cons (show isGap 'n' = false by decide)]
  | boolean value =>
    refine readsBack_of_succ (.boolean value) fun fuel rest _ _ => ?_
    cases value with
    | true => simp [readValue, writeValue, skipGap_cons (show isGap 't' = false by decide)]
    | false => simp [readValue, writeValue, skipGap_cons (show isGap 'f' = false by decide)]
  | number h =>
    refine readsBack_of_succ (.number h) fun fuel rest _ hrest => ?_
    rw [writeValue]
    exact readValue_writeNumber_append h fuel hrest
  | text h =>
    refine readsBack_of_succ (.text h) fun fuel rest _ _ => ?_
    simp [readValue, writeValue, writeUnits, skipGap_cons (show isGap '"' = false by decide),
      readUnits_flatMap_writeUnit h]
  | array h ih =>
    refine readsBack_of_succ (.array h) fun fuel rest hfuel _ => ?_
    rw [writeValue, List.length_cons] at hfuel
    rw [writeValue]
    exact readValue_writeArray_append h ih (by omega) rest
  | object hnames hvalues ih =>
    refine readsBack_of_succ (.object hnames hvalues) fun fuel rest hfuel _ => ?_
    rw [writeValue, List.length_cons] at hfuel
    rw [writeValue]
    exact readValue_writeObject_append hnames ih (by omega) rest

/-- A well-formed value is the value of its text. -/
theorem read?_print {v : Value} (h : v.WellFormed) : read? (print v) = some v := by
  have hread := readsBack_of_wellFormed h (2 * (writeValue v).length + 2) [] (by omega)
    endsNumber_nil
  rw [List.append_nil] at hread
  rw [read?, print, String.length_ofList, String.toList_ofList, hread]
  rfl

/-! ## One line -/

theorem printable_writeElements {vs : List Value} (h : ∀ v ∈ vs, Printable (writeValue v)) :
    Printable (writeElements vs) := by
  induction vs with
  | nil => simp [writeElements]
  | cons v vs ih =>
    have hrest := ih fun w hw => h w (List.mem_cons_of_mem v hw)
    rw [writeElements_cons]
    split <;> simp [h v, hrest]

theorem printable_writeMembers {ms : List (List TextUnit × Value)}
    (hnames : ∀ m ∈ ms, ∀ u ∈ m.1, u.WellFormed)
    (hvalues : ∀ m ∈ ms, Printable (writeValue m.2)) : Printable (writeMembers ms) := by
  induction ms with
  | nil => simp [writeMembers]
  | cons m ms ih =>
    have hrest := ih (fun n hn => hnames n (List.mem_cons_of_mem m hn))
      fun n hn => hvalues n (List.mem_cons_of_mem m hn)
    have hname := printable_writeUnits (hnames m (by simp))
    rw [writeMembers_cons]
    split <;> simp [hname, hvalues m, hrest]

/-- A well-formed value is written without control characters, so its text is one line. -/
theorem printable_writeValue {v : Value} (h : v.WellFormed) : Printable (writeValue v) := by
  induction h with
  | null => simp [writeValue]
  | boolean value => cases value <;> simp [writeValue]
  | number h =>
    rw [writeValue]
    exact printable_writeNumber h
  | text h =>
    rw [writeValue]
    exact printable_writeUnits h
  | array _ ih => simp [writeValue, printable_writeElements ih]
  | object hnames _ ih => simp [writeValue, printable_writeMembers hnames ih]

end LiveDetection.Json
