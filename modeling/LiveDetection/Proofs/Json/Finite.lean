import LiveDetection.Proofs.Json.Map
import LiveDetection.Proofs.Json.Single

/-!
# Forms with confidences

A value that is not finite is written as if it were absent, and nothing is read there. So a value
with confidences is read from its form if all of them are finite, and otherwise it is not read.
-/

namespace LiveDetection.Json

variable {α κ : Type}

/-! ## The confidences of a value -/

/-- A type whose values hold confidences. -/
class HasConfidences (α : Type) where
  confidences : α → List Single

export HasConfidences (confidences)

/-- All confidences of a value are finite. -/
def AllFinite [HasConfidences α] (a : α) : Bool := (confidences a).all Single.isFinite

instance : HasConfidences Single where
  confidences x := [x]

instance [HasConfidences α] : HasConfidences (List α) where
  confidences values := values.flatMap confidences

instance [Ord κ] [HasConfidences α] : HasConfidences (OrderedMap κ α) where
  confidences m := m.entries.flatMap fun entry => confidences entry.2

theorem allFinite_single (x : Single) : AllFinite x = x.isFinite := Bool.and_true _

theorem allFinite_list [HasConfidences α] (values : List α) :
    AllFinite values = values.all AllFinite :=
  List.all_flatMap

theorem allFinite_map [Ord κ] [HasConfidences α] (m : OrderedMap κ α) :
    AllFinite m = m.entries.all fun entry => AllFinite entry.2 :=
  List.all_flatMap

/-! ## Forms read on a condition -/

/-- A type whose values are read from their forms if all their confidences are finite. -/
class FiniteForm (α : Type) [Form α] [HasConfidences α] : Prop where
  wellFormed_form : ∀ a : α, (Form.toJson a).WellFormed
  ofJson?_form : ∀ a : α, Form.ofJson? (Form.toJson a) = if AllFinite a then some a else none

export FiniteForm (wellFormed_form ofJson?_form)

/-- Values that are read on a condition are read when the condition holds for each of them. -/
theorem mapM_eq_ite {β γ : Type} {f : β → Option γ} {g : β → γ} {p : β → Bool} (l : List β)
    (h : ∀ b, f b = if p b then some (g b) else none) :
    l.mapM f = if l.all p then some (l.map g) else none := by
  induction l with
  | nil => rfl
  | cons b l ih =>
    rw [List.mapM_cons, h, ih, List.all_cons, List.map_cons]
    cases p b <;> cases l.all p <;> rfl

instance : FiniteForm Single where
  wellFormed_form := wellFormed_singleValue
  ofJson?_form x := by
    rw [allFinite_single]
    exact single?_singleValue x

variable [Form α] [HasConfidences α] [FiniteForm α]

/-- The text of a value is read as the value if all its confidences are finite. -/
theorem decode?_encode_eq_ite (a : α) :
    decode? (encode a) = if AllFinite a then some a else none := by
  rw [decode?, encode, read?_print (wellFormed_form a), Option.bind_some, ofJson?_form]

/-- A member with confidences is read if all of them are finite. -/
@[simp] theorem required_given_form (a : α) :
    (Slot.given (Form.toJson a)).required = if AllFinite a then some a else none :=
  ofJson?_form a

instance : FiniteForm (List α) where
  wellFormed_form values := by
    refine .array fun v hv => ?_
    obtain ⟨a, -, rfl⟩ := List.mem_map.mp hv
    exact wellFormed_form a
  ofJson?_form values := by
    have hread : (values.map Form.toJson).mapM Form.ofJson? =
        if values.all AllFinite then some (values.map id) else none := by
      rw [List.mapM_map]
      exact mapM_eq_ite values ofJson?_form
    rw [allFinite_list]
    rwa [List.map_id] at hread

instance [Ord κ] [Std.TransOrd κ] [Std.LawfulEqOrd κ] [MemberName κ] [LawfulName κ] :
    FiniteForm (OrderedMap κ α) where
  wellFormed_form m := wellFormed_toJson_map fun entry _ => wellFormed_form entry.2
  ofJson?_form m := by
    have hentries : (m.entries.mapM fun entry =>
        (Form.ofJson? (Form.toJson entry.2)).map fun a : α => (entry.1, a)) =
          if m.entries.all fun entry => AllFinite entry.2 then some (m.entries.map id)
          else none := by
      refine mapM_eq_ite m.entries fun entry => ?_
      rw [ofJson?_form]
      split <;> rfl
    rw [ofJson?_toJson_map, hentries, List.map_id, allFinite_map, apply_ite (Option.map _),
      Option.map_some, OrderedMap.ofList_entries, Option.map_none]

end LiveDetection.Json
