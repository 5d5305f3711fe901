/-!
# Maps in key order

A map is its list of entries in strictly ascending key order. The order is part of the
type, so two maps with the same entries are equal and every listing of a map is sorted.
-/

namespace LiveDetection

/-- A finite map whose entries ascend strictly by key. -/
structure OrderedMap (κ : Type) (α : Type) [Ord κ] where
  /-- The entries, least key first. -/
  entries : List (κ × α)
  /-- Every key is less than all keys after it. -/
  ascending : entries.Pairwise (fun a b => compare a.1 b.1 = .lt)

namespace OrderedMap

variable {κ α β : Type} [Ord κ]

@[ext] theorem ext {m n : OrderedMap κ α} (h : m.entries = n.entries) : m = n := by
  cases m; cases n
  cases h
  rfl

instance [DecidableEq κ] [DecidableEq α] : DecidableEq (OrderedMap κ α) := fun m n =>
  decidable_of_iff (m.entries = n.entries) ⟨ext, fun h => h ▸ rfl⟩

/-- The map without entries. -/
def empty : OrderedMap κ α := ⟨[], .nil⟩

instance : Inhabited (OrderedMap κ α) := ⟨empty⟩
instance : EmptyCollection (OrderedMap κ α) := ⟨empty⟩

/-- Put an entry where its key belongs. An entry with the same key gives way. -/
def place (key : κ) (value : α) : List (κ × α) → List (κ × α)
  | [] => [(key, value)]
  | entry :: rest =>
    match compare key entry.1 with
    | .lt => (key, value) :: entry :: rest
    | .eq => (key, value) :: rest
    | .gt => entry :: place key value rest

/-- Placing an entry brings in no other key. -/
theorem mem_place {key : κ} {value : α} {entry : κ × α} {entries : List (κ × α)}
    (h : entry ∈ place key value entries) : entry = (key, value) ∨ entry ∈ entries := by
  induction entries with
  | nil => simpa [place] using h
  | cons first rest ih =>
    rw [place] at h
    split at h
    · simpa using h
    · rcases List.mem_cons.mp h with h | h
      · exact .inl h
      · exact .inr (List.mem_cons_of_mem _ h)
    · rcases List.mem_cons.mp h with h | h
      · exact .inr (h ▸ List.mem_cons_self)
      · exact (ih h).imp_right (List.mem_cons_of_mem _)

variable [Std.TransOrd κ] [Std.LawfulEqOrd κ]

/-- Placing an entry keeps the keys ascending. -/
theorem ascending_place (key : κ) (value : α) {entries : List (κ × α)}
    (h : entries.Pairwise (fun a b => compare a.1 b.1 = .lt)) :
    (place key value entries).Pairwise (fun a b => compare a.1 b.1 = .lt) := by
  induction entries with
  | nil => simp [place]
  | cons first rest ih =>
    have hrest := List.pairwise_cons.mp h
    rw [place]
    split
    · rename_i hlt
      refine List.pairwise_cons.mpr ⟨?_, h⟩
      intro entry hentry
      rcases List.mem_cons.mp hentry with rfl | hentry
      · exact hlt
      · exact Std.TransCmp.lt_trans hlt (hrest.1 entry hentry)
    · rename_i heq
      have hkey : key = first.1 := Std.LawfulEqCmp.eq_of_compare heq
      exact List.pairwise_cons.mpr ⟨fun entry hentry => hkey ▸ hrest.1 entry hentry, hrest.2⟩
    · rename_i hgt
      refine List.pairwise_cons.mpr ⟨?_, ih hrest.2⟩
      intro entry hentry
      rcases mem_place hentry with rfl | hentry
      · exact Std.OrientedCmp.lt_of_gt hgt
      · exact hrest.1 entry hentry

/-- The map with `value` at `key`; an earlier value at `key` gives way. -/
def insert (m : OrderedMap κ α) (key : κ) (value : α) : OrderedMap κ α :=
  ⟨place key value m.entries, ascending_place key value m.ascending⟩

/-- The map that holds the listed entries; of two entries with one key the later wins. -/
def ofList (entries : List (κ × α)) : OrderedMap κ α :=
  entries.foldl (fun m entry => m.insert entry.1 entry.2) empty

omit [Std.TransOrd κ] [Std.LawfulEqOrd κ]

/-- The value at `key`, if there is one. -/
def get? (m : OrderedMap κ α) (key : κ) : Option α :=
  (m.entries.find? (fun entry => compare entry.1 key == .eq)).map (·.2)

/-- The keys, least first. -/
def keys (m : OrderedMap κ α) : List κ := m.entries.map (·.1)

/-- The entries that satisfy a test. -/
def filter (keep : κ → α → Bool) (m : OrderedMap κ α) : OrderedMap κ α :=
  ⟨m.entries.filter (fun entry => keep entry.1 entry.2), m.ascending.filter _⟩

/-- The entry with the least key. -/
def first? (m : OrderedMap κ α) : Option (κ × α) := m.entries.head?

/-- The entry with the greatest key. -/
def last? (m : OrderedMap κ α) : Option (κ × α) := m.entries.getLast?

@[simp] theorem entries_empty : (empty : OrderedMap κ α).entries = [] := rfl

@[simp] theorem entries_filter (keep : κ → α → Bool) (m : OrderedMap κ α) :
    (m.filter keep).entries = m.entries.filter (fun entry => keep entry.1 entry.2) := rfl

/-- An entry whose key exceeds all others goes to the end. -/
theorem place_of_forall_gt {key : κ} {value : α} {entries : List (κ × α)}
    (h : ∀ entry ∈ entries, compare key entry.1 = .gt) :
    place key value entries = entries ++ [(key, value)] := by
  induction entries with
  | nil => rfl
  | cons first rest ih =>
    have hfirst := h first List.mem_cons_self
    have hrest := ih fun entry hentry => h entry (List.mem_cons_of_mem _ hentry)
    simp [place, hfirst, hrest]

variable [Std.TransOrd κ] [Std.LawfulEqOrd κ]

@[simp] theorem entries_insert (m : OrderedMap κ α) (key : κ) (value : α) :
    (m.insert key value).entries = place key value m.entries := rfl

/-- Building a map from the listing of a map gives the map back. -/
theorem ofList_entries (m : OrderedMap κ α) : ofList m.entries = m := by
  suffices h : ∀ (front back : List (κ × α)) (n : OrderedMap κ α), n.entries = front →
      (front ++ back).Pairwise (fun a b => compare a.1 b.1 = .lt) →
      (back.foldl (fun m entry => m.insert entry.1 entry.2) n).entries = front ++ back from
    ext (by simpa [ofList] using h [] m.entries empty rfl (by simpa using m.ascending))
  intro front back
  induction back generalizing front with
  | nil => intro n hn _; simpa using hn
  | cons entry rest ih =>
    intro n hn hsorted
    have hlast : ∀ other ∈ front, compare entry.1 other.1 = .gt := fun other hother =>
      Std.OrientedCmp.gt_of_lt
        ((List.pairwise_append.mp hsorted).2.2 other hother entry List.mem_cons_self)
    have hplaced : (n.insert entry.1 entry.2).entries = front ++ [entry] := by
      rw [entries_insert, hn, place_of_forall_gt hlast]
    simpa using ih (front ++ [entry]) (n.insert entry.1 entry.2) hplaced (by simpa using hsorted)

end OrderedMap

end LiveDetection
