import LiveDetection.Detector.Motion
import Mathlib.Algebra.Group.Int.Defs

/-!
# The tracks of a stretch of frames

The motion component goes through the frames with the track that is under way in hand. `scan`
shows what it has in hand after some of them, so a list of frames can be taken in two parts. The
tracks lie in the stretch of the frames; a track under way ends with the last frame, and each of
its locations is that of an earlier frame or of this one.
-/

namespace LiveDetection

/-- The first and the last frame of a track. -/
def Track.range (t : Track) : Int × Int := (t.startFrame.toInt, t.stopFrame.toInt)

/-- A track that is not empty and lies in a stretch of frames. -/
structure Track.LiesIn (lo hi : Int) (t : Track) : Prop where
  lo_le : lo ≤ t.range.1
  start_le_stop : t.range.1 ≤ t.range.2
  stop_lt : t.range.2 < hi

theorem Track.LiesIn.mono {lo lo' hi hi' : Int} {t : Track} (h : t.LiesIn lo hi) (hlo : lo' ≤ lo)
    (hhi : hi ≤ hi') : t.LiesIn lo' hi' :=
  ⟨Int.le_trans hlo h.lo_le, h.start_le_stop, Int.lt_of_lt_of_le h.stop_lt hhi⟩

namespace MotionDetector

variable {limit : Single} {previous : Option Frame} {index : Int32} {location : ImageLocation}
  {t : Track}

/-- Every location of the track belongs to a frame before an index. -/
def EndsBefore (position : Int) (t : Track) : Prop :=
  ∀ entry ∈ t.locations.entries, entry.1.toInt < position

/-- A track of changed frames that began at `lo` or later and goes up to the frame before an
index. -/
structure Underway (lo position : Int) (t : Track) : Prop where
  lo_le : lo ≤ t.range.1
  start_lt : t.range.1 < position
  stop_eq : t.range.2 = position - 1
  endsBefore : EndsBefore position t

theorem Underway.liesIn {lo position : Int} (h : Underway lo position t) :
    t.LiesIn lo position := by
  obtain ⟨hlo, hstart, hstop, -⟩ := h
  exact ⟨hlo, by omega, by omega⟩

/-! ## One frame -/

/-- The track under way after one more changed frame. -/
def goOn (current : Option Track) (index : Int32) (location : ImageLocation) : Track :=
  match current with
  | none => singleTrack index location
  | some t => extendTrack t index location

/-- The index behind some frames, if there is one. -/
theorem toInt_add_ofNat {position : Int} {n : Nat} (h : index.toInt = position)
    (hfits : position + n < 2 ^ 31) : (index + Int32.ofNat n).toInt = position + n := by
  have hle := index.le_toInt
  rw [Int32.toInt_add, h, Int32.toInt_ofNat', Int.add_bmod_bmod]
  exact Int.bmod_eq_of_le (by simp; omega) (by simp; omega)

theorem entries_singleTrack :
    (singleTrack index location).locations.entries = [(index, location)] :=
  rfl

/-- A location for a frame behind all others goes to the end. -/
theorem entries_extendTrack (h : EndsBefore index.toInt t) :
    (extendTrack t index location).locations.entries =
      t.locations.entries ++ [(index, location)] := by
  refine OrderedMap.place_of_forall_gt fun entry hentry => ?_
  exact Std.compare_eq_gt.mpr (Int32.lt_iff_toInt_lt.mpr (h entry hentry))

theorem EndsBefore.extendTrack (h : EndsBefore index.toInt t) (location : ImageLocation) :
    EndsBefore (index.toInt + 1) (extendTrack t index location) := by
  intro entry hentry
  rw [entries_extendTrack h] at hentry
  rcases List.mem_append.mp hentry with hentry | hentry
  · have hlt := h entry hentry
    omega
  · rw [List.mem_singleton.mp hentry]
    exact Int.lt_add_one_of_le (Int.le_refl _)

theorem underway_goOn {lo : Int} {current : Option Track} (hlo : lo ≤ index.toInt)
    (hcurrent : ∀ t ∈ current, Underway lo index.toInt t) (location : ImageLocation) :
    Underway lo (index.toInt + 1) (goOn current index location) := by
  cases current with
  | none =>
    refine ⟨hlo, Int.lt_succ _, (Int.add_sub_cancel _ _).symm, fun entry hentry => ?_⟩
    rw [goOn, entries_singleTrack] at hentry
    rw [List.mem_singleton.mp hentry]
    exact Int.lt_succ _
  | some t =>
    have ht := hcurrent t rfl
    exact ⟨ht.lo_le, Int.lt_add_one_of_le (Int.le_of_lt ht.start_lt),
      (Int.add_sub_cancel _ _).symm, ht.endsBefore.extendTrack location⟩

/-! ## Some frames -/

/-- The tracks that are over after some frames, and the one under way. -/
def scan (limit : Single) (index : Int32) (previous : Option Frame) (current : Option Track) :
    List Frame → List Track × Option Track
  | [] => ([], current)
  | frame :: rest =>
    match change? limit previous frame with
    | none =>
      let later := scan limit (index + 1) (some frame) none rest
      (current.toList ++ later.1, later.2)
    | some difference =>
      scan limit (index + 1) (some frame)
        (some (goOn current index (locationOf frame difference))) rest

theorem tracksFrom_of_unchanged {current : Option Track} {frame : Frame} {rest : List Frame}
    (h : change? limit previous frame = none) :
    tracksFrom limit index previous current (frame :: rest) =
      current.toList ++ tracksFrom limit (index + 1) (some frame) none rest := by
  rw [tracksFrom, h]

theorem tracksFrom_of_changed {current : Option Track} {frame : Frame} {rest : List Frame}
    {difference : Single} (h : change? limit previous frame = some difference) :
    tracksFrom limit index previous current (frame :: rest) =
      tracksFrom limit (index + 1) (some frame)
        (some (goOn current index (locationOf frame difference))) rest := by
  rw [tracksFrom, h]
  cases current <;> rfl

/-- The tracks of some frames and of those after them: the track under way goes on. -/
theorem tracksFrom_append (limit : Single) (index : Int32) (previous : Option Frame)
    (current : Option Track) (front back : List Frame) :
    tracksFrom limit index previous current (front ++ back) =
      (scan limit index previous current front).1 ++
        tracksFrom limit (index + Int32.ofNat front.length) (front.getLast?.or previous)
          (scan limit index previous current front).2 back := by
  induction front generalizing index previous current with
  | nil => simp [scan]
  | cons frame front ih =>
    have hindex : index + Int32.ofNat (frame :: front).length =
        index + 1 + Int32.ofNat front.length := by
      rw [List.length_cons, Nat.add_comm, Int32.ofNat_add, Int32.add_assoc]
      rfl
    have hlast : (frame :: front).getLast?.or previous = front.getLast?.or (some frame) := by
      rw [List.getLast?_cons]
      cases front.getLast? <;> rfl
    rw [List.cons_append, scan, hindex, hlast]
    cases hchange : change? limit previous frame with
    | none => rw [tracksFrom_of_unchanged hchange, ih, List.append_assoc]
    | some difference => rw [tracksFrom_of_changed hchange, ih]

/-- When no frame is left, the track under way is over. -/
theorem tracksFrom_eq_scan (limit : Single) (index : Int32) (previous : Option Frame)
    (current : Option Track) (frames : List Frame) :
    tracksFrom limit index previous current frames =
      (scan limit index previous current frames).1 ++
        (scan limit index previous current frames).2.toList := by
  have happend := tracksFrom_append limit index previous current frames []
  rwa [List.append_nil, tracksFrom] at happend

/-- The stretch of the frames behind the first one. -/
theorem next_of_cons {frame : Frame} {rest : List Frame}
    (hfits : index.toInt + (frame :: rest).length ≤ 2 ^ 31) :
    (rest = [] ∨ (index + 1).toInt = index.toInt + 1) ∧
      index.toInt + 1 + rest.length ≤ 2 ^ 31 := by
  rw [List.length_cons] at hfits
  refine ⟨?_, by omega⟩
  by_cases hrest : rest = []
  · exact .inl hrest
  · have hpos := List.length_pos_iff.mpr hrest
    exact .inr (toInt_add_ofNat rfl (by rw [Int.natCast_one]; omega))

/-- The tracks that are over lie in the stretch of the frames, and the one under way ends there.
The index of the first frame counts only if there is one. -/
theorem liesIn_scan (limit : Single) (previous : Option Frame) (current : Option Track)
    (frames : List Frame) {lo position : Int}
    (hindex : frames = [] ∨ index.toInt = position) (hfits : position + frames.length ≤ 2 ^ 31)
    (hlo : lo ≤ position) (hcurrent : ∀ t ∈ current, Underway lo position t) :
    (∀ t ∈ (scan limit index previous current frames).1, t.LiesIn lo (position + frames.length)) ∧
      ∀ t ∈ (scan limit index previous current frames).2,
        Underway lo (position + frames.length) t := by
  induction frames generalizing index previous current lo position with
  | nil => simpa [scan] using hcurrent
  | cons frame rest ih =>
    obtain rfl : index.toInt = position := hindex.resolve_left (List.cons_ne_nil _ _)
    have hlength : index.toInt + ((frame :: rest).length : Int) =
        index.toInt + 1 + rest.length := by
      rw [List.length_cons]
      omega
    obtain ⟨hnext, hrest⟩ := next_of_cons hfits
    rw [hlength, scan]
    cases hchange : change? limit previous frame with
    | none =>
      obtain ⟨hover, hunder⟩ := ih (some frame) none hnext hrest (Int.le_refl _) (by simp)
      refine ⟨fun t ht => ?_, fun t ht => ?_⟩
      · rcases List.mem_append.mp ht with ht | ht
        · exact (hcurrent t (Option.mem_toList.mp ht)).liesIn.mono (Int.le_refl _) (by omega)
        · exact (hover t ht).mono (by omega) (Int.le_refl _)
      · obtain ⟨hlo', hstart, hstop, hends⟩ := hunder t ht
        exact ⟨by omega, hstart, hstop, hends⟩
    | some difference =>
      refine ih (some frame) _ hnext hrest (by omega) ?_
      rintro t ⟨⟩
      exact underway_goOn hlo hcurrent _

/-- The tracks of some frames lie in their stretch. -/
theorem liesIn_tracksFrom (limit : Single) (previous : Option Frame) (frames : List Frame)
    {position : Int}
    (hindex : frames = [] ∨ index.toInt = position) (hfits : position + frames.length ≤ 2 ^ 31) :
    ∀ t ∈ tracksFrom limit index previous none frames,
      t.LiesIn position (position + frames.length) := by
  obtain ⟨hover, hunder⟩ := liesIn_scan limit previous none frames hindex hfits (Int.le_refl _)
    (by simp)
  intro t ht
  rw [tracksFrom_eq_scan] at ht
  rcases List.mem_append.mp ht with ht | ht
  · exact hover t ht
  · exact (hunder t (Option.mem_toList.mp ht)).liesIn

end MotionDetector

end LiveDetection
