import LiveDetection.Track.Repair

/-!
# Repaired tracks lie in their segment

Whatever tracks a component reports, the tracks that repair leaves are consistent and lie in the
range of frames that they were cut to. The first and the last location of a track bound all of
its locations, because they are kept in key order.
-/

namespace LiveDetection

namespace OrderedMap

variable {α : Type} {m : OrderedMap Int32 α}

theorem le_of_mem_keys_of_first? {entry : Int32 × α} (h : m.first? = some entry) {key : Int32}
    (hkey : key ∈ m.keys) : entry.1 ≤ key := by
  obtain ⟨entries, hascending⟩ := m
  obtain ⟨rest, rfl⟩ := List.head?_eq_some_iff.mp h
  rcases List.mem_cons.mp hkey with rfl | hkey
  · exact Int32.le_refl _
  · obtain ⟨other, hother, rfl⟩ := List.mem_map.mp hkey
    have hlt := (List.pairwise_cons.mp hascending).1 other hother
    exact Int32.le_of_lt (Std.compare_eq_lt.mp hlt)

theorem le_of_mem_keys_of_last? {entry : Int32 × α} (h : m.last? = some entry) {key : Int32}
    (hkey : key ∈ m.keys) : key ≤ entry.1 := by
  obtain ⟨entries, hascending⟩ := m
  obtain ⟨front, rfl⟩ := List.getLast?_eq_some_iff.mp h
  obtain ⟨other, hother, rfl⟩ := List.mem_map.mp hkey
  rcases List.mem_append.mp hother with hother | hother
  · have hlt := (List.pairwise_append.mp hascending).2.2 other hother entry (by simp)
    exact Int32.le_of_lt (Std.compare_eq_lt.mp hlt)
  · rw [List.mem_singleton.mp hother]
    exact Int32.le_refl _

end OrderedMap

namespace Track

variable {t repaired : Track} {start stop : Int32}

/-- A track lies in a range of frames. -/
def Within (t : Track) (start stop : Int32) : Prop := start ≤ t.startFrame ∧ t.stopFrame ≤ stop

theorem mem_keys_locationsWithin {key : Int32}
    (h : key ∈ (t.locationsWithin start stop).keys) : start ≤ key ∧ key ≤ stop := by
  obtain ⟨entry, hentry, rfl⟩ := List.mem_map.mp h
  have hkeep := (List.mem_filter.mp hentry).2
  simp only [Bool.and_eq_true, decide_eq_true_eq] at hkeep
  exact hkeep.1

/-- The range of a repaired track holds its locations and lies in the segment. -/
theorem rangeWithin_spec (t : Track) (start stop : Int32) :
    (∀ key ∈ (t.locationsWithin start stop).keys,
      (t.rangeWithin start stop).1 ≤ key ∧ key ≤ (t.rangeWithin start stop).2) ∧
    start ≤ (t.rangeWithin start stop).1 ∧ (t.rangeWithin start stop).2 ≤ stop := by
  cases hfirst : (t.locationsWithin start stop).first? with
  | none =>
    have hempty : (t.locationsWithin start stop).keys = [] := by
      rw [OrderedMap.keys, List.head?_eq_none_iff.mp hfirst, List.map_nil]
    simp only [rangeWithin, hfirst, hempty]
    refine ⟨by simp, ?_, ?_⟩
    · split
      · exact Int32.le_refl _
      · exact Int32.not_lt.mp ‹_›
    · split
      · exact Int32.le_refl _
      · exact Int32.not_lt.mp ‹_›
  | some first =>
    obtain ⟨rest, hentries⟩ := List.head?_eq_some_iff.mp hfirst
    obtain ⟨last, hlast⟩ : ∃ last, (t.locationsWithin start stop).last? = some last :=
      ⟨_, (congrArg List.getLast? hentries).trans List.getLast?_cons⟩
    have hfirst' : first.1 ∈ (t.locationsWithin start stop).keys :=
      List.mem_map_of_mem (List.mem_of_head? hfirst)
    have hlast' : last.1 ∈ (t.locationsWithin start stop).keys :=
      List.mem_map_of_mem (List.mem_of_getLast? hlast)
    simp only [rangeWithin, hfirst, hlast]
    refine ⟨fun key hkey => ?_, (mem_keys_locationsWithin hfirst').1,
      (mem_keys_locationsWithin hlast').2⟩
    exact ⟨OrderedMap.le_of_mem_keys_of_first? hfirst hkey,
      OrderedMap.le_of_mem_keys_of_last? hlast hkey⟩

theorem spec_of_repair? (h : t.repair? start stop = some repaired) :
    repaired.Consistent ∧ repaired.Within start stop := by
  obtain ⟨hkeys, hstart, hstop⟩ := t.rangeWithin_spec start stop
  rw [repair?] at h
  split at h
  · cases h
  · rename_i hrange
    cases h
    exact ⟨⟨Int32.not_lt.mp hrange, hkeys⟩, hstart, hstop⟩

end Track

theorem consistent_of_mem_repairTracks {tracks : List Track} {start stop : Int32} {t : Track}
    (h : t ∈ repairTracks tracks start stop) : t.Consistent ∧ t.Within start stop := by
  obtain ⟨original, -, hrepair⟩ := List.mem_filterMap.mp h
  exact Track.spec_of_repair? hrepair

end LiveDetection
