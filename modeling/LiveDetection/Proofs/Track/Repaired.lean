import LiveDetection.Proofs.Track.Repair
import Mathlib.Data.List.Forall2
import Mathlib.Order.Bounds.Basic

/-!
# What repair makes of a track

A track survives repair if one of its locations does, or else if something of its range lies in
the segment. A location survives if its frame lies in the segment and its size is valid. A track
that keeps locations spans exactly those; a track without locations is cut to the segment. Repair
changes nothing else, and nothing at all of a track that it has made.
-/

namespace LiveDetection

namespace Track

variable {t r : Track} {start stop : Int32}

/-- A location of a track lies in a range of frames and has a valid size. -/
def Keeps (start stop : Int32) (entry : Int32 × ImageLocation) : Prop :=
  start ≤ entry.1 ∧ entry.1 ≤ stop ∧ 0 ≤ entry.2.width ∧ 0 ≤ entry.2.height

instance (start stop : Int32) (entry : Int32 × ImageLocation) :
    Decidable (Keeps start stop entry) :=
  inferInstanceAs (Decidable (_ ∧ _))

/-- Something of a track lies in a range of frames. -/
def Survives (start stop : Int32) (t : Track) : Prop :=
  (∃ entry ∈ t.locations.entries, Keeps start stop entry) ∨
    max t.startFrame start ≤ min t.stopFrame stop

instance (start stop : Int32) (t : Track) : Decidable (t.Survives start stop) :=
  inferInstanceAs (Decidable (_ ∨ _))

/-- The second track is the first one, brought into a range of frames. -/
structure RepairsTo (start stop : Int32) (t r : Track) : Prop where
  confidence_eq : r.confidence = t.confidence
  properties_eq : r.properties = t.properties
  /-- The locations that are left are those that lie in the range and have a valid size. -/
  mem_locations_iff : ∀ entry,
    entry ∈ r.locations.entries ↔ entry ∈ t.locations.entries ∧ Keeps start stop entry
  /-- With locations left, the track spans them. -/
  spans : r.locations.keys ≠ [] →
    IsLeast {frame | frame ∈ r.locations.keys} r.startFrame ∧
      IsGreatest {frame | frame ∈ r.locations.keys} r.stopFrame
  /-- Without locations left, the track is cut to the range. -/
  clamped : r.locations.keys = [] →
    r.startFrame = max t.startFrame start ∧ r.stopFrame = min t.stopFrame stop

/-! ## Locations that are left -/

theorem mem_locationsWithin_iff {entry : Int32 × ImageLocation} :
    entry ∈ (t.locationsWithin start stop).entries ↔
      entry ∈ t.locations.entries ∧ Keeps start stop entry := by
  simp [locationsWithin, ImageLocation.hasExtent, Keeps, and_assoc]

theorem locationsWithin_eq_self (h : ∀ entry ∈ t.locations.entries, Keeps start stop entry) :
    t.locationsWithin start stop = t.locations := by
  refine OrderedMap.ext (List.filter_eq_self.mpr fun entry hentry => ?_)
  simpa [ImageLocation.hasExtent, Keeps, and_assoc] using h entry hentry

theorem keys_eq_nil_iff {m : OrderedMap Int32 ImageLocation} : m.keys = [] ↔ m.entries = [] :=
  List.map_eq_nil_iff

/-! ## The range -/

theorem if_lt_eq_max (a b : Int32) : (if a < b then b else a) = max a b := by
  change _ = if a ≤ b then b else a
  by_cases hlt : a < b
  · rw [if_pos hlt, if_pos (Int32.le_of_lt hlt)]
  · by_cases hle : a ≤ b
    · rw [if_neg hlt, if_pos hle, Int32.le_antisymm hle (Int32.not_lt.mp hlt)]
    · rw [if_neg hlt, if_neg hle]

theorem if_lt_eq_min (a b : Int32) : (if b < a then b else a) = min a b := by
  change _ = if a ≤ b then a else b
  by_cases hlt : b < a
  · rw [if_pos hlt, if_neg (Int32.not_le.mpr hlt)]
  · rw [if_neg hlt, if_pos (Int32.not_lt.mp hlt)]

theorem rangeWithin_of_keys_eq_nil (h : (t.locationsWithin start stop).keys = []) :
    t.rangeWithin start stop = (max t.startFrame start, min t.stopFrame stop) := by
  have hfirst : (t.locationsWithin start stop).first? = none := by
    simp [OrderedMap.first?, keys_eq_nil_iff.mp h]
  simp only [rangeWithin, hfirst, if_lt_eq_max, if_lt_eq_min]

/-- With locations left, the range goes from the first of them to the last. -/
theorem rangeWithin_of_keys_ne_nil (h : (t.locationsWithin start stop).keys ≠ []) :
    IsLeast {frame | frame ∈ (t.locationsWithin start stop).keys} (t.rangeWithin start stop).1 ∧
      IsGreatest {frame | frame ∈ (t.locationsWithin start stop).keys}
        (t.rangeWithin start stop).2 := by
  obtain ⟨hbounds, -, -⟩ := t.rangeWithin_spec start stop
  have hne : (t.locationsWithin start stop).entries ≠ [] := mt keys_eq_nil_iff.mpr h
  have hfirst := List.head?_eq_some_head hne
  have hlast := List.getLast?_eq_some_getLast hne
  have hrange : t.rangeWithin start stop =
      (((t.locationsWithin start stop).entries.head hne).1,
        ((t.locationsWithin start stop).entries.getLast hne).1) := by
    simp only [rangeWithin, OrderedMap.first?, OrderedMap.last?, hfirst, hlast]
  have hmem : (t.rangeWithin start stop).1 ∈ (t.locationsWithin start stop).keys ∧
      (t.rangeWithin start stop).2 ∈ (t.locationsWithin start stop).keys := by
    rw [hrange]
    exact ⟨List.mem_map_of_mem (List.head_mem hne), List.mem_map_of_mem (List.getLast_mem hne)⟩
  exact ⟨⟨hmem.1, fun frame hframe => (hbounds frame hframe).1⟩,
    ⟨hmem.2, fun frame hframe => (hbounds frame hframe).2⟩⟩

/-! ## One track -/

theorem repairsTo_of_repair? (h : t.repair? start stop = some r) : RepairsTo start stop t r := by
  rw [repair?] at h
  split at h
  · cases h
  · cases h
    constructor
    case confidence_eq => rfl
    case properties_eq => rfl
    case mem_locations_iff => exact fun _ => mem_locationsWithin_iff
    case spans => exact fun hkeys => rangeWithin_of_keys_ne_nil hkeys
    case clamped =>
      intro hkeys
      rw [rangeWithin_of_keys_eq_nil hkeys]
      exact ⟨rfl, rfl⟩

theorem isSome_repair?_iff : (t.repair? start stop).isSome ↔ t.Survives start stop := by
  have hsome : (t.repair? start stop).isSome ↔
      (t.rangeWithin start stop).1 ≤ (t.rangeWithin start stop).2 := by
    by_cases hrange : (t.rangeWithin start stop).2 < (t.rangeWithin start stop).1
    · simp [repair?, hrange, Int32.not_le.mpr hrange]
    · simp [repair?, hrange, Int32.not_lt.mp hrange]
  rw [hsome]
  by_cases hkeys : (t.locationsWithin start stop).keys = []
  · have hnone : ¬ ∃ entry ∈ t.locations.entries, Keeps start stop entry := by
      rintro ⟨entry, hentry, hkeeps⟩
      have hmem := mem_locationsWithin_iff.mpr ⟨hentry, hkeeps⟩
      rw [keys_eq_nil_iff.mp hkeys] at hmem
      cases hmem
    simp only [rangeWithin_of_keys_eq_nil hkeys, Survives, hnone, false_or]
  · obtain ⟨hleast, hgreatest⟩ := rangeWithin_of_keys_ne_nil hkeys
    obtain ⟨entry, hentry⟩ := List.exists_mem_of_ne_nil _ (mt keys_eq_nil_iff.mpr hkeys)
    have hsurvives : t.Survives start stop := .inl ⟨entry, mem_locationsWithin_iff.mp hentry⟩
    exact iff_of_true (hleast.2 hgreatest.1) hsurvives

/-- A track whose locations are all kept has its own range if it spans them. -/
theorem rangeWithin_eq_self (hkeeps : t.locationsWithin start stop = t.locations)
    (hkeys : t.locations.keys ≠ [])
    (hspans : IsLeast {frame | frame ∈ t.locations.keys} t.startFrame ∧
      IsGreatest {frame | frame ∈ t.locations.keys} t.stopFrame) :
    t.rangeWithin start stop = (t.startFrame, t.stopFrame) := by
  obtain ⟨hleast, hgreatest⟩ := hspans
  have hbounds := rangeWithin_of_keys_ne_nil (hkeeps ▸ hkeys)
  rw [hkeeps] at hbounds
  refine Prod.ext ?_ ?_
  · exact Int32.le_antisymm (hbounds.1.2 hleast.1) (hleast.2 hbounds.1.1)
  · exact Int32.le_antisymm (hgreatest.2 hbounds.2.1) (hbounds.2.2 hgreatest.1)

/-- A track with its own range and all of its locations in it needs no repair. -/
theorem repair?_eq_self (hkeeps : t.locationsWithin start stop = t.locations)
    (hrange : t.rangeWithin start stop = (t.startFrame, t.stopFrame))
    (hle : t.startFrame ≤ t.stopFrame) : t.repair? start stop = some t := by
  simp only [repair?, hrange, Int32.not_lt.mpr hle, if_false, hkeeps]

/-- A repaired track needs no repair. -/
theorem repair?_of_repair? (h : t.repair? start stop = some r) :
    r.repair? start stop = some r := by
  obtain ⟨⟨hrange, -⟩, hstart, hstop⟩ := spec_of_repair? h
  have hrepairs := repairsTo_of_repair? h
  have hlocations : r.locationsWithin start stop = r.locations :=
    locationsWithin_eq_self fun entry hentry => ((hrepairs.mem_locations_iff entry).mp hentry).2
  have hsame : r.rangeWithin start stop = (r.startFrame, r.stopFrame) := by
    by_cases hkeys : r.locations.keys = []
    · rw [rangeWithin_of_keys_eq_nil (hlocations ▸ hkeys), ← if_lt_eq_max, ← if_lt_eq_min,
        if_neg (Int32.not_lt.mpr hstart), if_neg (Int32.not_lt.mpr hstop)]
    · exact rangeWithin_eq_self hlocations hkeys (hrepairs.spans hkeys)
  exact repair?_eq_self hlocations hsame hrange

end Track

/-! ## All tracks -/

theorem forall₂_repairTracks (tracks : List Track) (start stop : Int32) :
    List.Forall₂ (Track.RepairsTo start stop) (tracks.filter (Track.Survives start stop))
      (repairTracks tracks start stop) := by
  induction tracks with
  | nil => exact .nil
  | cons t rest ih =>
    cases hrepair : t.repair? start stop with
    | none =>
      have hdropped : ¬ t.Survives start stop := by
        rw [← Track.isSome_repair?_iff, hrepair]
        simp
      simpa [repairTracks, hrepair, hdropped] using ih
    | some r =>
      have hsurvives : t.Survives start stop := by
        rw [← Track.isSome_repair?_iff, hrepair]
        rfl
      simpa [repairTracks, hrepair, hsurvives] using
        List.Forall₂.cons (Track.repairsTo_of_repair? hrepair) ih

theorem repairTracks_of_lt {start stop : Int32} (tracks : List Track) (h : stop < start) :
    repairTracks tracks start stop = [] := by
  refine List.eq_nil_iff_forall_not_mem.mpr fun r hr => ?_
  obtain ⟨⟨hrange, -⟩, hstart, hstop⟩ := consistent_of_mem_repairTracks hr
  exact Int32.not_lt.mpr (Int32.le_trans hstart (Int32.le_trans hrange hstop)) h

theorem repairTracks_repairTracks (tracks : List Track) (start stop : Int32) :
    repairTracks (repairTracks tracks start stop) start stop = repairTracks tracks start stop := by
  simp only [repairTracks, List.filterMap_filterMap]
  refine List.filterMap_congr fun t _ => ?_
  cases hrepair : t.repair? start stop with
  | none => rfl
  | some r => exact Track.repair?_of_repair? hrepair

/-- Repair keeps the tracks of which something lies in the range, in their order, and makes of each
of them what lies there. So the tracks that it leaves are consistent and lie in the range, there
are none in an empty range, and a second repair changes nothing. -/
theorem repairTracks_spec (tracks : List Track) (start stop : Int32) :
    List.Forall₂ (Track.RepairsTo start stop) (tracks.filter (Track.Survives start stop))
        (repairTracks tracks start stop) ∧
      (∀ r ∈ repairTracks tracks start stop, r.Consistent ∧ r.Within start stop) ∧
      (stop < start → repairTracks tracks start stop = []) ∧
      repairTracks (repairTracks tracks start stop) start stop =
        repairTracks tracks start stop :=
  ⟨forall₂_repairTracks tracks start stop, fun _ => consistent_of_mem_repairTracks,
    repairTracks_of_lt tracks, repairTracks_repairTracks tracks start stop⟩

/-- A location of a width. -/
def locationOfWidth (width : Int32) : ImageLocation :=
  { x := 0, y := 0, width := width, height := 1, confidence := .one }

/-- Tracks of each kind that repair tells apart: one with locations, and three without, of which
the second lies outside of the frames from 10 to 19 and the last has an empty range. -/
def sampleTracks : List Track :=
  [{ startFrame := 0, stopFrame := 20, confidence := .one
     locations := .ofList [(8, locationOfWidth 1), (12, locationOfWidth 1),
       (15, locationOfWidth (-1)), (17, locationOfWidth 0), (25, locationOfWidth 1)] },
    { startFrame := 5, stopFrame := 12, confidence := .one },
    { startFrame := 30, stopFrame := 40, confidence := .one },
    { startFrame := 12, stopFrame := 11, confidence := .one }]

theorem repairTracks_sampleTracks : (10 : Int32) < 19 ∧ repairTracks sampleTracks 19 10 = [] :=
  ⟨by decide, (repairTracks_spec sampleTracks 19 10).2.2.1 (by decide)⟩

/-- Of the sample tracks two are left, the one with its locations in the middle and the other cut
to its end. -/
example :
    (repairTracks sampleTracks 10 19).map (fun t => (t.startFrame, t.stopFrame, t.locations.keys)) =
      [(12, 17, [12, 17]), (10, 12, [])] := by
  decide +kernel

end LiveDetection
