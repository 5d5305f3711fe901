import LiveDetection.Data.OrderedMap
import Mathlib.Data.List.Induction
import Mathlib.Data.List.Nodup
import Mathlib.Data.List.Perm.Basic

/-!
# Looking up keys

A map is determined by the values at its keys. In a map made of listed entries a key has the value
of the last entry with it, so entries without a repeated key make the same map in any order.
-/

namespace LiveDetection

variable {κ α : Type}

/-! ## Lists in another order -/

/-- What is found does not depend on the order if there is no more than one of it. -/
theorem find?_eq_of_perm {p : α → Bool} {l l' : List α} (h : l'.Perm l)
    (hone : (l.filter p).length ≤ 1) : l'.find? p = l.find? p := by
  have hfiltered : (l'.filter p).Perm (l.filter p) := h.filter p
  have hsame : l'.filter p = l.filter p := by
    rcases hl : l.filter p with _ | ⟨a, _ | ⟨b, rest⟩⟩
    · rw [hl] at hfiltered
      exact hfiltered.eq_nil
    · rw [hl] at hfiltered
      exact hfiltered.eq_singleton
    · simp [hl] at hone
  rw [← List.head?_filter, ← List.head?_filter, hsame]

theorem length_filter_le_one [DecidableEq κ] {f : α → κ} {l : List α} (h : (l.map f).Nodup)
    (key : κ) : (l.filter fun a => f a = key).length ≤ 1 := by
  have hcount := List.nodup_iff_count_le_one.mp h key
  rw [List.count, List.countP_map, List.countP_eq_length_filter] at hcount
  exact hcount

/-- The value of the last entry with a key. -/
def lastOf? [DecidableEq κ] (entries : List (κ × α)) (key : κ) : Option α :=
  (entries.reverse.find? fun entry => entry.1 = key).map (·.2)

theorem lastOf?_concat [DecidableEq κ] (entries : List (κ × α)) (entry : κ × α) (key : κ) :
    lastOf? (entries ++ [entry]) key =
      if entry.1 = key then some entry.2 else lastOf? entries key := by
  by_cases h : entry.1 = key <;> simp [lastOf?, h]

theorem lastOf?_map [DecidableEq κ] {β : Type} (entries : List (κ × α)) (f : α → β) (key : κ) :
    lastOf? (entries.map fun entry => (entry.1, f entry.2)) key =
      (lastOf? entries key).map f := by
  rw [lastOf?, lastOf?, ← List.map_reverse, List.find?_map, Option.map_map, Option.map_map]
  rfl

/-- Entries with distinct keys in another order. -/
def Rearranged (entries entries' : List (κ × α)) : Prop :=
  entries' = entries ∨ (entries.map (·.1)).Nodup ∧ entries'.Perm entries

theorem Rearranged.lastOf?_eq [DecidableEq κ] {entries entries' : List (κ × α)}
    (h : Rearranged entries entries') (key : κ) : lastOf? entries' key = lastOf? entries key := by
  rcases h with rfl | ⟨hdistinct, hperm⟩
  · rfl
  · have hreversed : entries'.reverse.Perm entries.reverse :=
      (List.reverse_perm entries').trans (hperm.trans (List.reverse_perm entries).symm)
    have hkeys : (entries.reverse.map (·.1)).Nodup := by
      rwa [List.map_reverse, List.nodup_reverse]
    rw [lastOf?, lastOf?, find?_eq_of_perm hreversed (length_filter_le_one hkeys key)]

/-! ## Maps -/

namespace OrderedMap

variable [Ord κ]

/-- A map has at most one entry for a key. -/
theorem nodup_keys [Std.ReflOrd κ] (m : OrderedMap κ α) : m.keys.Nodup := by
  refine List.pairwise_map.mpr (m.ascending.imp ?_)
  intro a b hlt heq
  have hself : compare b.1 b.1 = .eq := Std.ReflCmp.compare_self
  rw [heq, hself] at hlt
  cases hlt

variable [Std.LawfulEqOrd κ]

/-- The entries of a map are its keys with their values. -/
theorem mem_entries_iff (m : OrderedMap κ α) {key : κ} {value : α} :
    (key, value) ∈ m.entries ↔ m.get? key = some value := by
  rw [get?, Option.map_eq_some_iff]
  constructor
  · intro hmem
    obtain ⟨found, hfound⟩ : ∃ found,
        m.entries.find? (fun entry => compare entry.1 key == .eq) = some found := by
      rw [← Option.isSome_iff_exists, List.find?_isSome]
      exact ⟨(key, value), hmem, by simp⟩
    have hkey : found.1 = key := by simpa using List.find?_some hfound
    have hsame : found = (key, value) :=
      List.inj_on_of_nodup_map m.nodup_keys (List.mem_of_find?_eq_some hfound) hmem hkey
    exact ⟨found, hfound, by rw [hsame]⟩
  · rintro ⟨found, hfound, rfl⟩
    obtain rfl : found.1 = key := by simpa using List.find?_some hfound
    exact List.mem_of_find?_eq_some hfound

theorem ext_get? [Std.OrientedOrd κ] {m n : OrderedMap κ α}
    (h : ∀ key, m.get? key = n.get? key) : m = n := by
  have hperm : m.entries.Perm n.entries := by
    rw [List.perm_ext_iff_of_nodup (.of_map _ m.nodup_keys) (.of_map _ n.nodup_keys)]
    intro entry
    rw [mem_entries_iff, mem_entries_iff, h]
  refine ext (List.Perm.eq_of_pairwise ?_ m.ascending n.ascending hperm)
  intro a b _ _ hab hba
  rw [Std.OrientedOrd.eq_swap, hba] at hab
  cases hab

theorem get?_insert [Std.TransOrd κ] [DecidableEq κ] (m : OrderedMap κ α) (key : κ) (value : α)
    (other : κ) :
    (m.insert key value).get? other = if key = other then some value else m.get? other := by
  rw [get?, get?, entries_insert]
  induction m.entries with
  | nil => by_cases h : key = other <;> simp [place, h]
  | cons first rest ih =>
    rw [place]
    split
    · by_cases h : key = other <;> simp [h]
    · next heq =>
      obtain rfl := Std.compare_eq_iff_eq.mp heq
      by_cases h : first.1 = other <;> simp [h]
    · next hgt =>
      by_cases hfirst : first.1 = other
      · have hne : ¬ key = other := by
          rintro rfl
          rw [hfirst, Std.compare_self] at hgt
          cases hgt
        simp [hfirst, hne]
      · simpa [hfirst] using ih

/-- In a map made of listed entries a key has the value of the last entry with it. -/
theorem get?_ofList [Std.TransOrd κ] [DecidableEq κ] (entries : List (κ × α)) (key : κ) :
    (ofList entries).get? key = lastOf? entries key := by
  induction entries using List.reverseRecOn with
  | nil => rfl
  | append_singleton front last ih =>
    have hlast : ofList (front ++ [last]) = (ofList front).insert last.1 last.2 := by
      simp [ofList]
    rw [hlast, get?_insert, lastOf?_concat, ih]

theorem ofList_eq_of_rearranged [Std.TransOrd κ] [DecidableEq κ] {entries entries' : List (κ × α)}
    (h : Rearranged entries entries') : ofList entries' = ofList entries := by
  refine ext_get? fun key => ?_
  rw [get?_ofList, get?_ofList, h.lastOf?_eq]

end OrderedMap

end LiveDetection
