import LiveDetection.Json.Form
import LiveDetection.Proofs.Json.RoundTrip
import Mathlib.Data.List.Nodup

/-!
# JSON forms read back

A lawful form is well formed and read as the value that it is the form of. Records with distinct
names give every member back under its name, so that a record of lawful members is lawful.
-/

namespace LiveDetection.Json

/-- A type whose values are read from their forms. -/
class LawfulForm (α : Type) [Form α] : Prop where
  wellFormed_toJson : ∀ a : α, (Form.toJson a).WellFormed
  ofJson?_toJson : ∀ a : α, Form.ofJson? (Form.toJson a) = some a

/-- A type whose forms differ from that of an absent value. -/
class NeverNull (α : Type) [Form α] : Prop where
  toJson_ne_null : ∀ a : α, Form.toJson a ≠ .null

export LawfulForm (wellFormed_toJson ofJson?_toJson)
export NeverNull (toJson_ne_null)

/-- A value with a lawful form is the value of its text. -/
theorem decode?_encode {α : Type} [Form α] [LawfulForm α] (a : α) :
    decode? (encode a) = some a := by
  rw [decode?, encode, read?_print (wellFormed_toJson a), Option.bind_some, ofJson?_toJson]

/-! ## Numbers and texts -/

theorem wellFormed_integerValue (z : Int) : (integerValue z).WellFormed :=
  .number (Number.wellFormed_ofInt z)

@[simp] theorem integer?_integerValue (z : Int) : integer? (integerValue z) = some z :=
  Number.toInt?_ofInt z

instance : LawfulForm Int32 where
  wellFormed_toJson n := wellFormed_integerValue n.toInt
  ofJson?_toJson n := by simp [Form.toJson, Form.ofJson?]

instance : LawfulForm Int64 where
  wellFormed_toJson n := wellFormed_integerValue n.toInt
  ofJson?_toJson n := by simp [Form.toJson, Form.ofJson?]

instance : LawfulForm UInt8 where
  wellFormed_toJson n := wellFormed_integerValue n.toNat
  ofJson?_toJson n := by simp [Form.toJson, Form.ofJson?]

instance : LawfulForm String where
  wellFormed_toJson _ := .text fun _ h => wellFormed_of_mem_spell h
  ofJson?_toJson text := text?_spell text

/-! ## Lists and options -/

/-- A function that gives every element a value gives the list the list of the values. -/
theorem mapM_eq_some_map {α β : Type} {f : α → Option β} {g : α → β} {l : List α}
    (h : ∀ a ∈ l, f a = some (g a)) : l.mapM f = some (l.map g) := by
  induction l with
  | nil => rfl
  | cons a l ih =>
    rw [List.mapM_cons, h a (by simp), ih fun b hb => h b (List.mem_cons_of_mem a hb)]
    rfl

variable {α : Type}

instance [Form α] [LawfulForm α] : LawfulForm (List α) where
  wellFormed_toJson values := by
    refine .array fun v hv => ?_
    obtain ⟨a, -, rfl⟩ := List.mem_map.mp hv
    exact wellFormed_toJson a
  ofJson?_toJson values := by
    have hread : (values.map Form.toJson).mapM Form.ofJson? = some (values.map id) := by
      rw [List.mapM_map]
      exact mapM_eq_some_map fun a _ => ofJson?_toJson a
    rwa [List.map_id] at hread

instance [Form α] : NeverNull (List α) where
  toJson_ne_null _ h := by cases h

instance [Form α] [LawfulForm α] [NeverNull α] : LawfulForm (Option α) where
  wellFormed_toJson
    | none => .null
    | some a => wellFormed_toJson a
  ofJson?_toJson
    | none => rfl
    | some a => by
      show (match Form.toJson a with
        | .null => some none
        | v => (Form.ofJson? v).map some) = some (some a)
      split
      · rename_i hnull
        exact absurd hnull (toJson_ne_null a)
      · rw [ofJson?_toJson, Option.map_some]

/-! ## Records -/

/-- A record is well formed when its members are. -/
theorem wellFormed_record {members : List (String × Value)}
    (h : ∀ m ∈ members, m.2.WellFormed) : (record members).WellFormed := by
  refine .object ?_ ?_
  · intro m hm u hu
    obtain ⟨n, -, rfl⟩ := List.mem_map.mp hm
    exact wellFormed_of_mem_spell hu
  · intro m hm
    obtain ⟨n, hn, rfl⟩ := List.mem_map.mp hm
    exact h n hn

/-- Of members with distinct names, each is the only one of its name. -/
theorem slot?_of_mem {members : List (String × Value)} (hnames : (members.map (·.1)).Nodup)
    {m : String × Value} (hm : m ∈ members) : slot? members m.1 = some (.given m.2) := by
  have hfilter : members.filter (·.1 == m.1) = [m] := by
    induction members with
    | nil => simp at hm
    | cons n ns ih =>
      obtain ⟨hfirst, hrest⟩ := List.nodup_cons.mp hnames
      rcases List.mem_cons.mp hm with rfl | hm
      · have hnone : ns.filter (·.1 == m.1) = [] := by
          rw [List.filter_eq_nil_iff]
          intro k hk he
          exact hfirst (List.mem_map.mpr ⟨k, hk, by simpa using he⟩)
        simp [hnone]
      · have hne : n.1 ≠ m.1 := fun he => hfirst (List.mem_map.mpr ⟨m, hm, he.symm⟩)
        simpa [hne] using ih hrest hm
  rw [slot?, hfilter]

/-- The slots of a record with distinct names hold its members. -/
theorem slots?_record (members : List (String × Value)) (hnames : (members.map (·.1)).Nodup) :
    slots? (members.map (·.1)) (record members) = some (members.map fun m => .given m.2) := by
  have hnamed : (members.map fun m => (spell m.1, m.2)).mapM
      (fun m => (TextUnit.text? m.1).map (·, m.2)) = some (members.map id) := by
    rw [List.mapM_map]
    exact mapM_eq_some_map fun m _ => by simp
  have hslots : (members.map (·.1)).mapM (slot? members) =
      some (members.map fun m => .given m.2) := by
    rw [List.mapM_map]
    exact mapM_eq_some_map fun m hm => slot?_of_mem hnames hm
  rw [List.map_id] at hnamed
  simp only [record, slots?, hnamed, Option.bind_eq_bind, Option.bind_some, hslots]

/-- The slots of a record with two names hold its two members. -/
theorem slots?_pair {first second : String} (h : first ≠ second) (a b : Value) :
    slots? [first, second] (record [(first, a), (second, b)]) = some [.given a, .given b] :=
  slots?_record [(first, a), (second, b)] (by simpa using h)

theorem wellFormed_pair {first second : String} {a b : Value} (ha : a.WellFormed)
    (hb : b.WellFormed) : (record [(first, a), (second, b)]).WellFormed :=
  wellFormed_record (by simp [ha, hb])

/-- A text names the case that it spells. -/
@[simp] theorem case?_toJson (name : String) : case? (Form.toJson name) = some name :=
  text?_spell name

@[simp] theorem required_given_toJson [Form α] [LawfulForm α] (a : α) :
    (Slot.given (Form.toJson a)).required = some a :=
  ofJson?_toJson a

@[simp] theorem orNone_given_toJson [Form α] [LawfulForm (Option α)] (a : Option α) :
    (Slot.given (Form.toJson a)).orNone = some a :=
  ofJson?_toJson a

end LiveDetection.Json
