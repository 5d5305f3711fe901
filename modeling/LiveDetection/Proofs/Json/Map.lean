import LiveDetection.Proofs.Json.Form

/-!
# Maps and their names read back

A name of a member that is read as the value that it spells lets a map be read back: the entries
of a map have distinct names, so no entry gives way to a later one.
-/

namespace LiveDetection.Json

/-- A type whose values are read from their names. -/
class LawfulName (κ : Type) [MemberName κ] : Prop where
  wellFormed_toUnits : ∀ key : κ, ∀ u ∈ MemberName.toUnits key, u.WellFormed
  ofUnits?_toUnits : ∀ key : κ, MemberName.ofUnits? (MemberName.toUnits key) = some key

export LawfulName (wellFormed_toUnits ofUnits?_toUnits)

instance : LawfulName String where
  wellFormed_toUnits _ _ h := wellFormed_of_mem_spell h
  ofUnits?_toUnits := text?_spell

/-- An integer is written with nothing but a sign and digits. -/
theorem isNumberHead_of_mem_writeNumber_ofInt {z : Int} {c : Char}
    (h : c ∈ writeNumber (.ofInt z)) : IsNumberHead c := by
  simp only [writeNumber, Number.ofInt, writeExponent, if_true, List.append_nil,
    List.mem_append] at h
  rcases h with hsign | hdigit
  · by_cases hz : z < 0
    · exact .inl (by simpa [hz] using hsign)
    · simp [hz] at hsign
  · obtain ⟨d, hd, rfl⟩ := List.mem_map.mp hdigit
    exact .inr ⟨d, areDigits_digitsOf _ d hd, rfl⟩

/-- A character that an integer is written with stands for itself. -/
theorem wellFormed_plain_of_isNumberHead {c : Char} (h : IsNumberHead c) :
    (TextUnit.plain c).WellFormed := by
  have hdigits : ∀ d < 10, 0x20 ≤ (digitChar d).toNat ∧ digitChar d ≠ '"' ∧
      digitChar d ≠ '\\' := by decide
  rcases h with rfl | ⟨d, hd, rfl⟩
  · exact ⟨by decide, by decide, by decide⟩
  · exact hdigits d hd

/-- An integer spelled without escapes is read as the integer. -/
theorem readNumber_of_plain_units (z : Int) :
    (((writeNumber (.ofInt z)).map .plain).mapM TextUnit.plain?).bind readNumber =
      some (Number.ofInt z, []) := by
  have hplain : ((writeNumber (.ofInt z)).map .plain).mapM TextUnit.plain? =
      some ((writeNumber (.ofInt z)).map id) := by
    rw [List.mapM_map]
    exact mapM_eq_some_map fun _ _ => rfl
  have hread := readNumber_writeNumber_append (Number.wellFormed_ofInt z) endsNumber_nil
  rw [List.append_nil] at hread
  rw [hplain, List.map_id, Option.bind_some, hread]

instance : LawfulName Int32 where
  wellFormed_toUnits key u hu := by
    obtain ⟨c, hc, rfl⟩ := List.mem_map.mp hu
    exact wellFormed_plain_of_isNumberHead (isNumberHead_of_mem_writeNumber_ofInt hc)
  ofUnits?_toUnits key := by
    have hread := readNumber_of_plain_units key.toInt
    simp only [MemberName.ofUnits?, MemberName.toUnits, Option.bind_eq_bind]
    rw [← Option.bind_assoc, hread]
    simp

variable {κ α : Type}

/-- A member whose name is a value's has that value as its key. -/
theorem entry?_toUnits [MemberName κ] [LawfulName κ] [Form α] (key : κ) (v : Value) :
    entry? (MemberName.toUnits key, v) = (Form.ofJson? v).map fun a : α => (key, a) := by
  unfold entry?
  rw [ofUnits?_toUnits, Option.map_eq_bind]
  rfl

section Maps

variable [Ord κ] [Std.TransOrd κ] [Std.LawfulEqOrd κ] [MemberName κ] [LawfulName κ] [Form α]

/-- A map is well formed when its values are. -/
theorem wellFormed_toJson_map {m : OrderedMap κ α}
    (h : ∀ entry ∈ m.entries, (Form.toJson entry.2).WellFormed) :
    (Form.toJson m).WellFormed := by
  refine .object ?_ ?_
  · intro member hmember u hu
    obtain ⟨entry, -, rfl⟩ := List.mem_map.mp hmember
    exact wellFormed_toUnits entry.1 u hu
  · intro member hmember
    obtain ⟨entry, hentry, rfl⟩ := List.mem_map.mp hmember
    exact h entry hentry

/-- The entries of a map are read one by one. The map that they make is the map itself. -/
theorem ofJson?_toJson_map (m : OrderedMap κ α) :
    Form.ofJson? (Form.toJson m) =
      (m.entries.mapM fun entry =>
        (Form.ofJson? (Form.toJson entry.2)).map fun a : α => (entry.1, a)).map
          OrderedMap.ofList := by
  have hentries :
      (m.entries.map fun entry => (MemberName.toUnits entry.1, Form.toJson entry.2)).mapM entry? =
        m.entries.mapM fun entry =>
          (Form.ofJson? (Form.toJson entry.2)).map fun a : α => (entry.1, a) := by
    rw [List.mapM_map]
    exact congrArg (m.entries.mapM ·) (funext fun entry => entry?_toUnits _ _)
  exact congrArg (Option.map OrderedMap.ofList) hentries

instance [LawfulForm α] : LawfulForm (OrderedMap κ α) where
  wellFormed_toJson m := wellFormed_toJson_map fun entry _ => wellFormed_toJson entry.2
  ofJson?_toJson m := by
    have hentries : (m.entries.mapM fun entry =>
        (Form.ofJson? (Form.toJson entry.2)).map fun a : α => (entry.1, a)) =
          some (m.entries.map id) :=
      mapM_eq_some_map fun entry _ => by rw [ofJson?_toJson, Option.map_some, id]
    rw [ofJson?_toJson_map, hentries, List.map_id, Option.map_some, OrderedMap.ofList_entries]

end Maps

end LiveDetection.Json
