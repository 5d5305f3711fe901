import LiveDetection.Proofs.Data.OrderedMap
import LiveDetection.Proofs.Motion.Segmentation
import LiveDetection.Proofs.Track.Repaired

/-!
# Tracks are the runs of changed frames

A frame has changed if it differs from the one before it by more than the threshold. The tracks of
a job cover the changed frames and no others, with an unchanged frame between any two of them, so
they are the maximal runs. Each track has one location for every frame of its range; so nothing of
it is left to repair, unless a picture has a negative size.
-/

namespace LiveDetection

/-- The track covers a frame. -/
def Track.Covers (t : Track) (index : Int) : Prop := t.range.1 ≤ index ∧ index ≤ t.range.2

/-- The track has one location for every frame of its range and no others. -/
structure Track.Filled (t : Track) : Prop where
  nodup_keys : t.locations.keys.Nodup
  mem_keys_iff : ∀ frame, frame ∈ t.locations.keys ↔ t.Covers frame.toInt

namespace MotionDetector

/-! ## Changed frames -/

/-- The frame before frame number `n` of some frames, of which the first comes after `previous`. -/
def predecessor? (previous : Option Frame) (frames : List Frame) : Nat → Option Frame
  | 0 => previous
  | n + 1 => frames[n]?

/-- Frame number `n` has a difference to the one before it, and that is more than the limit. -/
def Changed (limit : Single) (previous : Option Frame) (frames : List Frame) (n : Nat) : Prop :=
  ∃ before ∈ predecessor? previous frames n, ∃ frame ∈ frames[n]?,
    ∃ difference ∈ meanDifference? before frame, limit.lt difference = true

variable {limit : Single} {previous : Option Frame} {current : Option Track} {frame : Frame}
  {frames rest : List Frame} {index : Int32} {location : ImageLocation} {lo position i : Int}

theorem isSome_change?_iff :
    (change? limit previous frame).isSome ↔ Changed limit previous (frame :: rest) 0 := by
  cases previous with
  | none => simp [change?, Changed, predecessor?]
  | some before =>
    cases hdifference : meanDifference? before frame <;>
      simp [change?, Changed, predecessor?, hdifference, Option.isSome_filter]

theorem changed_succ_iff {n : Nat} :
    Changed limit previous (frame :: rest) (n + 1) ↔ Changed limit (some frame) rest n := by
  cases n <;> rfl

/-- Of the frames of a stretch, the first has changed or one of those behind it. -/
theorem exists_changed_cons_iff :
    (∃ n : Nat, i = position + n ∧ Changed limit previous (frame :: rest) n) ↔
      i = position ∧ (change? limit previous frame).isSome ∨
        ∃ n : Nat, i = position + 1 + n ∧ Changed limit (some frame) rest n := by
  constructor
  · rintro ⟨n, rfl, hchanged⟩
    cases n with
    | zero => exact .inl ⟨by omega, isSome_change?_iff.mpr hchanged⟩
    | succ n => exact .inr ⟨n, by omega, changed_succ_iff.mp hchanged⟩
  · rintro (⟨rfl, hsome⟩ | ⟨n, rfl, hchanged⟩)
    · exact ⟨0, by omega, isSome_change?_iff.mp hsome⟩
    · exact ⟨n + 1, by omega, changed_succ_iff.mpr hchanged⟩

/-! ## The track under way -/

theorem covers_goOn_iff (hcurrent : ∀ t ∈ current, Underway lo index.toInt t) :
    (goOn current index location).Covers i ↔
      (∃ t ∈ current, t.Covers i) ∨ i = index.toInt := by
  cases current with
  | none =>
    simp only [goOn, singleTrack, Track.Covers, Track.range]
    constructor
    · intro hcovers
      exact .inr (by omega)
    · rintro (⟨t, ⟨⟩, -⟩ | rfl)
      omega
  | some t =>
    obtain ⟨-, hstart, hstop, -⟩ := hcurrent t rfl
    have hextended : (goOn (some t) index location).range = (t.range.1, index.toInt) := rfl
    simp only [Track.Covers, hextended, Option.mem_some_iff, exists_eq_left']
    omega

theorem entries_goOn (hcurrent : ∀ t ∈ current, Underway lo index.toInt t) :
    (goOn current index location).locations.entries =
      current.toList.flatMap (·.locations.entries) ++ [(index, location)] := by
  cases current with
  | none => exact entries_singleTrack
  | some t => simpa [goOn] using entries_extendTrack (hcurrent t rfl).endsBefore

/-- With a location for its new frame, the track under way stays filled. -/
theorem filled_goOn (hcurrent : ∀ t ∈ current, Underway lo index.toInt t ∧ t.Filled) :
    (goOn current index location).Filled := by
  refine ⟨OrderedMap.nodup_keys _, fun frame => ?_⟩
  have hunder : ∀ t ∈ current, Underway lo index.toInt t := fun t ht => (hcurrent t ht).1
  have hkeys : (goOn current index location).locations.keys =
      current.toList.flatMap (·.locations.keys) ++ [index] := by
    rw [OrderedMap.keys, entries_goOn hunder, List.map_append, List.map_flatMap]
    rfl
  rw [hkeys, covers_goOn_iff hunder, List.mem_append, List.mem_singleton, Int32.toInt_inj]
  cases current with
  | none => simp
  | some t => simp [(hcurrent t rfl).2.mem_keys_iff]

/-! ## The tracks of some frames -/

/-- What holds of the track under way, however it goes on, holds of all tracks. -/
theorem forall_mem_tracksFrom {Q : Track → Prop}
    (hgoOn : ∀ current index, ∀ frame ∈ frames, ∀ difference,
      (∀ t ∈ current, Underway lo index.toInt t ∧ Q t) →
        Q (goOn current index (locationOf frame difference)))
    (hindex : frames = [] ∨ index.toInt = position) (hfits : position + frames.length ≤ 2 ^ 31)
    (hlo : lo ≤ position) (hcurrent : ∀ t ∈ current, Underway lo position t ∧ Q t) :
    ∀ t ∈ tracksFrom limit index previous current frames, Q t := by
  induction frames generalizing index previous current position with
  | nil =>
    intro t ht
    exact (hcurrent t (Option.mem_toList.mp ht)).2
  | cons frame rest ih =>
    obtain rfl : index.toInt = position := hindex.resolve_left (List.cons_ne_nil _ _)
    obtain ⟨hnext, hrest⟩ := next_of_cons hfits
    have hgoOn' := fun current index other hother =>
      hgoOn current index other (List.mem_cons_of_mem frame hother)
    cases hchange : change? limit previous frame with
    | none =>
      rw [tracksFrom_of_unchanged hchange]
      intro t ht
      rcases List.mem_append.mp ht with ht | ht
      · exact (hcurrent t (Option.mem_toList.mp ht)).2
      · exact ih hgoOn' hnext hrest (by omega) (by simp) t ht
    | some difference =>
      rw [tracksFrom_of_changed hchange]
      refine ih hgoOn' hnext hrest (by omega) ?_
      rintro t ⟨⟩
      exact ⟨underway_goOn hlo (fun t ht => (hcurrent t ht).1) _,
        hgoOn current index frame List.mem_cons_self difference hcurrent⟩

/-- The tracks cover what the one under way covers, and the changed frames. -/
theorem covers_tracksFrom_iff (hindex : frames = [] ∨ index.toInt = position)
    (hfits : position + frames.length ≤ 2 ^ 31) (hlo : lo ≤ position)
    (hcurrent : ∀ t ∈ current, Underway lo position t) :
    (∃ t ∈ tracksFrom limit index previous current frames, t.Covers i) ↔
      (∃ t ∈ current, t.Covers i) ∨
        ∃ n : Nat, i = position + n ∧ Changed limit previous frames n := by
  induction frames generalizing index previous current position with
  | nil => simp [tracksFrom, Changed]
  | cons frame rest ih =>
    obtain rfl : index.toInt = position := hindex.resolve_left (List.cons_ne_nil _ _)
    obtain ⟨hnext, hrest⟩ := next_of_cons hfits
    rw [exists_changed_cons_iff]
    cases hchange : change? limit previous frame with
    | none =>
      have hlater := @ih (some frame) none _ _ hnext hrest (by omega) (by simp)
      rw [tracksFrom_of_unchanged hchange]
      simp only [List.mem_append, Option.mem_toList, or_and_right, exists_or, hlater]
      simp
    | some difference =>
      have hunder := underway_goOn hlo hcurrent (locationOf frame difference)
      have hlater := @ih (some frame) (some _) _ _ hnext hrest (by omega)
        (by rintro t ⟨⟩; exact hunder)
      rw [tracksFrom_of_changed hchange, hlater]
      simp [covers_goOn_iff hcurrent, or_assoc]

/-- Between any two tracks there is a frame that has not changed. -/
theorem separated_tracksFrom (still : Int → Prop)
    (hstill : ∀ n < frames.length, ¬ Changed limit previous frames n → still (position + n))
    (hindex : frames = [] ∨ index.toInt = position) (hfits : position + frames.length ≤ 2 ^ 31)
    (hlo : lo ≤ position) (hcurrent : ∀ t ∈ current, Underway lo position t) :
    (tracksFrom limit index previous current frames).Pairwise fun t u =>
      ∃ index, still index ∧ t.range.2 < index ∧ index < u.range.1 := by
  induction frames generalizing index previous current position with
  | nil => cases current <;> simp [tracksFrom]
  | cons frame rest ih =>
    obtain rfl : index.toInt = position := hindex.resolve_left (List.cons_ne_nil _ _)
    obtain ⟨hnext, hrest⟩ := next_of_cons hfits
    have hstill' : ∀ n < rest.length, ¬ Changed limit (some frame) rest n →
        still (index.toInt + 1 + n) := by
      intro n hn hunchanged
      have hlater := hstill (n + 1) (by simpa using hn) (mt changed_succ_iff.mp hunchanged)
      rwa [Int.natCast_add, Int.natCast_one, Int.add_comm (n : Int), ← Int.add_assoc] at hlater
    cases hchange : change? limit previous frame with
    | none =>
      rw [tracksFrom_of_unchanged hchange]
      refine List.pairwise_append.mpr ⟨by cases current <;> simp,
        ih hstill' hnext hrest (by omega) (by simp), fun t ht u hu => ⟨index.toInt, ?_, ?_, ?_⟩⟩
      · have hunchanged : ¬ Changed limit previous (frame :: rest) 0 := by
          simp [← isSome_change?_iff, hchange]
        simpa using hstill 0 (by simp) hunchanged
      · have hstop := (hcurrent t (Option.mem_toList.mp ht)).stop_eq
        omega
      · have hstart := (liesIn_tracksFrom limit (some frame) rest hnext hrest u hu).lo_le
        omega
    | some difference =>
      rw [tracksFrom_of_changed hchange]
      refine ih hstill' hnext hrest (by omega) ?_
      rintro t ⟨⟩
      exact underway_goOn hlo hcurrent _

/-- Each location shows one of the frames. -/
def Shows (frames : List Frame) (t : Track) : Prop :=
  ∀ entry ∈ t.locations.entries, ∃ frame ∈ frames, ∃ difference,
    entry.2 = locationOf frame difference

theorem shows_goOn {difference : Single}
    (hcurrent : ∀ t ∈ current, Underway lo index.toInt t ∧ Shows frames t)
    (hframe : frame ∈ frames) :
    Shows frames (goOn current index (locationOf frame difference)) := by
  intro entry hentry
  rw [entries_goOn fun t ht => (hcurrent t ht).1] at hentry
  rcases List.mem_append.mp hentry with hentry | hentry
  · obtain ⟨t, ht, hentry⟩ := List.mem_flatMap.mp hentry
    exact (hcurrent t (Option.mem_toList.mp ht)).2 entry hentry
  · rw [List.mem_singleton.mp hentry]
    exact ⟨frame, hframe, difference, rfl⟩

end MotionDetector

namespace Track

variable {t : Track} {start stop : Int32}

theorem Filled.consistent (h : t.Filled) (hrange : t.range.1 ≤ t.range.2) : t.Consistent := by
  refine ⟨Int32.le_iff_toInt_le.mpr hrange, fun frame hframe => ?_⟩
  obtain ⟨hstart, hstop⟩ := (h.mem_keys_iff frame).mp hframe
  exact ⟨Int32.le_iff_toInt_le.mpr hstart, Int32.le_iff_toInt_le.mpr hstop⟩

/-- A filled track spans its locations. -/
theorem Filled.spans (h : t.Filled) (hrange : t.range.1 ≤ t.range.2) :
    IsLeast {frame | frame ∈ t.locations.keys} t.startFrame ∧
      IsGreatest {frame | frame ∈ t.locations.keys} t.stopFrame := by
  obtain ⟨-, hkeys⟩ := h.consistent hrange
  refine ⟨⟨?_, fun frame hframe => (hkeys frame hframe).1⟩,
    ⟨?_, fun frame hframe => (hkeys frame hframe).2⟩⟩
  · exact (h.mem_keys_iff t.startFrame).mpr ⟨Int.le_refl _, hrange⟩
  · exact (h.mem_keys_iff t.stopFrame).mpr ⟨hrange, Int.le_refl _⟩

/-- A filled track in a segment needs no repair if its locations have valid sizes. -/
theorem Filled.repair?_eq_self (h : t.Filled) (hrange : t.range.1 ≤ t.range.2)
    (hstart : start.toInt ≤ t.range.1) (hstop : t.range.2 ≤ stop.toInt)
    (hsizes : ∀ entry ∈ t.locations.entries, 0 ≤ entry.2.width ∧ 0 ≤ entry.2.height) :
    t.repair? start stop = some t := by
  obtain ⟨hle, hkeys⟩ := h.consistent hrange
  have hspans := h.spans hrange
  have hkeeps : t.locationsWithin start stop = t.locations := by
    refine locationsWithin_eq_self fun entry hentry => ?_
    obtain ⟨hfirst, hlast⟩ := hkeys entry.1 (List.mem_map_of_mem hentry)
    refine ⟨?_, ?_, hsizes entry hentry⟩
    · exact Int32.le_trans (Int32.le_iff_toInt_le.mpr hstart) hfirst
    · exact Int32.le_trans hlast (Int32.le_iff_toInt_le.mpr hstop)
  exact Track.repair?_eq_self hkeeps
    (rangeWithin_eq_self hkeeps (List.ne_nil_of_mem hspans.1.1) hspans) hle

end Track

theorem repairTracks_eq_self {tracks : List Track} {start stop : Int32}
    (h : ∀ t ∈ tracks, t.repair? start stop = some t) :
    repairTracks tracks start stop = tracks := by
  rw [repairTracks, List.filterMap_congr h, List.filterMap_some]

namespace MotionDetector

/-! ## The tracks of a job -/

/-- The tracks are the maximal runs of changed frames of a job. -/
structure AreRuns (limit : Single) (previous : Option Frame) (job : VideoJob)
    (tracks : List Track) : Prop where
  /-- They ascend, with an unchanged frame of the job between any two of them. -/
  separated : tracks.Pairwise fun t u => ∃ n < job.frames.length,
    ¬ Changed limit previous job.frames n ∧
      t.range.2 < job.startFrame.toInt + n ∧ job.startFrame.toInt + n < u.range.1
  /-- They cover the changed frames and no others. -/
  covers_iff : ∀ index : Int, (∃ t ∈ tracks, t.Covers index) ↔
    ∃ n : Nat, index = job.startFrame.toInt + n ∧ Changed limit previous job.frames n
  filled : ∀ t ∈ tracks, t.Filled
  consistent : ∀ t ∈ tracks, t.Consistent
  /-- Up to the last frame of the job or a later one there is nothing to repair, if no picture has a
  negative size. -/
  repairTracks_eq : (∀ frame ∈ job.frames, 0 ≤ frame.width ∧ 0 ≤ frame.height) →
    ∀ stop : Int32, job.startFrame.toInt + job.frames.length - 1 ≤ stop.toInt →
      repairTracks tracks job.startFrame stop = tracks

theorem areRuns_tracksFrom (limit : Single) (previous : Option Frame) {job : VideoJob}
    (hlast : job.startFrame.toInt + job.frames.length ≤ 2 ^ 31) :
    AreRuns limit previous job (tracksFrom limit job.startFrame previous none job.frames) := by
  have hliesIn := liesIn_tracksFrom limit previous job.frames (.inr rfl) hlast
  have hfilled : ∀ t ∈ tracksFrom limit job.startFrame previous none job.frames, t.Filled :=
    forall_mem_tracksFrom (fun _ _ _ _ _ hcurrent => filled_goOn hcurrent) (.inr rfl) hlast
      (Int.le_refl _) (by simp)
  have hshows : ∀ t ∈ tracksFrom limit job.startFrame previous none job.frames,
      Shows job.frames t :=
    forall_mem_tracksFrom (fun _ _ _ hframe _ hcurrent => shows_goOn hcurrent hframe) (.inr rfl)
      hlast (Int.le_refl _) (by simp)
  constructor
  case separated =>
    refine (separated_tracksFrom (fun index => ∃ n < job.frames.length,
      ¬ Changed limit previous job.frames n ∧ index = job.startFrame.toInt + n)
      (fun n hn hunchanged => ⟨n, hn, hunchanged, rfl⟩) (.inr rfl) hlast (Int.le_refl _)
      (by simp)).imp ?_
    rintro t u ⟨_, ⟨n, hn, hunchanged, rfl⟩, hbehind, hahead⟩
    exact ⟨n, hn, hunchanged, hbehind, hahead⟩
  case covers_iff =>
    intro index
    rw [covers_tracksFrom_iff (.inr rfl) hlast (Int.le_refl _) (by simp)]
    simp
  case filled => exact hfilled
  case consistent => exact fun t ht => (hfilled t ht).consistent (hliesIn t ht).start_le_stop
  case repairTracks_eq =>
    intro hsizes stop hstop
    refine repairTracks_eq_self fun t ht => ?_
    obtain ⟨hlo, hrange, hhi⟩ := hliesIn t ht
    refine (hfilled t ht).repair?_eq_self hrange hlo (by omega) fun entry hentry => ?_
    obtain ⟨frame, hframe, difference, hlocation⟩ := hshows t ht entry hentry
    rw [hlocation]
    exact hsizes frame hframe

/-- Whatever a detector remembers, a job with a threshold is answered with the maximal runs of its
changed frames, as long as they have indices. -/
theorem areRuns_detect {job : VideoJob} {limit : Single} (hlimit : threshold job = .ok limit)
    (hlast : job.startFrame.toInt + job.frames.length - 1 ≤ Int32.maxValue.toInt)
    (d : MotionDetector) :
    ∃ tracks, (detect job d).1 = .ok tracks ∧ AreRuns limit d.previous job tracks := by
  rw [Int32.toInt_maxValue] at hlast
  rw [detect, hlimit]
  exact ⟨_, rfl, areRuns_tracksFrom limit d.previous (by omega)⟩

/-- In the sample job, the second frame and the third one are a run. -/
theorem areRuns_sampleJob :
    ∃ tracks, (detect sampleJob {}).1 = .ok tracks ∧
      AreRuns defaultThreshold none sampleJob tracks ∧ rangesOf tracks = [(1, 2)] ∧
      repairTracks tracks 0 3 = tracks := by
  obtain ⟨tracks, htracks, hruns⟩ :=
    areRuns_detect (rfl : threshold sampleJob = .ok defaultThreshold) (by decide) {}
  have hranges : rangesOf tracks = [(1, 2)] := by
    rw [← Except.ok.inj htracks]
    decide +kernel
  exact ⟨tracks, htracks, hruns, hranges, hruns.repairTracks_eq (by decide) 3 (by decide)⟩

end MotionDetector

end LiveDetection
