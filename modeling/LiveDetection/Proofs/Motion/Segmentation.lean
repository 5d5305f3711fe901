import LiveDetection.Proofs.Motion.Tracks
import Mathlib.Data.List.Basic

/-!
# Motion does not depend on the segments

However a stretch of frames is cut into jobs, the motion component finds the same locations and
ends in the same state as with one job. The tracks have the same ranges, but one that a cut
crosses is divided there: what is found behind the cut goes to a track of its own.
-/

namespace LiveDetection

/-- The ranges of some tracks, in their order. -/
def rangesOf (tracks : List Track) : List (Int × Int) := tracks.map Track.range

/-- The locations of some tracks with their frames, in their order. -/
def locationsOf (tracks : List Track) : List (Int32 × ImageLocation) :=
  tracks.flatMap (·.locations.entries)

@[simp] theorem rangesOf_append (front back : List Track) :
    rangesOf (front ++ back) = rangesOf front ++ rangesOf back :=
  List.map_append

@[simp] theorem locationsOf_append (front back : List Track) :
    locationsOf (front ++ back) = locationsOf front ++ locationsOf back :=
  List.flatMap_append

/-! ## Cuts -/

/-- A range of frames divided at those cuts, in ascending order, that lie behind its first frame
and not behind its last. -/
def splitRange : List Int → Int × Int → List (Int × Int)
  | [], range => [range]
  | cut :: cuts, range =>
    if range.1 < cut ∧ cut ≤ range.2 then (range.1, cut - 1) :: splitRange cuts (cut, range.2)
    else splitRange cuts range

section

variable {cut : Int} {cuts : List Int} {range : Int × Int} {ranges : List (Int × Int)}

theorem splitRange_of_crossed (h : range.1 < cut ∧ cut ≤ range.2) :
    splitRange (cut :: cuts) range = (range.1, cut - 1) :: splitRange cuts (cut, range.2) :=
  if_pos h

theorem splitRange_of_not_crossed (h : ¬ (range.1 < cut ∧ cut ≤ range.2)) :
    splitRange (cut :: cuts) range = splitRange cuts range :=
  if_neg h

theorem splitRange_of_before (h : ∀ cut ∈ cuts, range.2 < cut) :
    splitRange cuts range = [range] := by
  induction cuts with
  | nil => rfl
  | cons cut cuts ih =>
    have hcut := h cut List.mem_cons_self
    rw [splitRange_of_not_crossed (by omega)]
    exact ih fun other hother => h other (List.mem_cons_of_mem _ hother)

/-- To cut at several places is to cut at the first and then at the others. -/
theorem splitRange_cons (h : ∀ other ∈ cuts, cut ≤ other) (range : Int × Int) :
    splitRange (cut :: cuts) range = (splitRange [cut] range).flatMap (splitRange cuts) := by
  by_cases hcrossed : range.1 < cut ∧ cut ≤ range.2
  · have hfront : splitRange cuts (range.1, cut - 1) = [(range.1, cut - 1)] :=
      splitRange_of_before fun other hother => Int.sub_one_lt_of_le (h other hother)
    rw [splitRange_of_crossed hcrossed, splitRange_of_crossed hcrossed, List.flatMap_cons, hfront,
      splitRange, List.flatMap_singleton, List.singleton_append]
  · rw [splitRange_of_not_crossed hcrossed, splitRange_of_not_crossed hcrossed, splitRange,
      List.flatMap_singleton]

theorem flatMap_splitRange_cons (h : ∀ other ∈ cuts, cut ≤ other) (ranges : List (Int × Int)) :
    ranges.flatMap (splitRange (cut :: cuts)) =
      (ranges.flatMap (splitRange [cut])).flatMap (splitRange cuts) := by
  rw [List.flatMap_assoc]
  exact List.flatMap_congr fun range _ => splitRange_cons h range

/-- Ranges behind a cut stay as they are. -/
theorem flatMap_splitRange_of_behind (h : ∀ range ∈ ranges, cut ≤ range.1) :
    ranges.flatMap (splitRange (cut :: cuts)) = ranges.flatMap (splitRange cuts) :=
  List.flatMap_congr fun range hrange =>
    splitRange_of_not_crossed fun hcrossed => Int.not_le.mpr hcrossed.1 (h range hrange)

/-- Ranges before all cuts stay as they are. -/
theorem flatMap_splitRange_of_before (h : ∀ range ∈ ranges, ∀ cut ∈ cuts, range.2 < cut) :
    ranges.flatMap (splitRange cuts) = ranges := by
  rw [List.flatMap_congr fun range hrange => splitRange_of_before (h range hrange)]
  exact List.flatMap_singleton' ranges

end

/-- No cut at the end of their stretch or behind it divides the ranges of some tracks. -/
theorem flatMap_splitRange_rangesOf_of_before {lo hi : Int} {cuts : List Int} {tracks : List Track}
    (htracks : ∀ t ∈ tracks, t.LiesIn lo hi) (hcuts : ∀ cut ∈ cuts, hi ≤ cut) :
    (rangesOf tracks).flatMap (splitRange cuts) = rangesOf tracks := by
  refine flatMap_splitRange_of_before fun range hrange cut hcut => ?_
  obtain ⟨t, ht, rfl⟩ := List.mem_map.mp hrange
  exact Int.lt_of_lt_of_le (htracks t ht).stop_lt (hcuts cut hcut)

/-- No cut at the beginning of their stretch divides the ranges of some tracks. -/
theorem flatMap_splitRange_rangesOf_of_behind {lo hi : Int} {cuts : List Int}
    {tracks : List Track} (htracks : ∀ t ∈ tracks, t.LiesIn lo hi) :
    (rangesOf tracks).flatMap (splitRange (lo :: cuts)) =
      (rangesOf tracks).flatMap (splitRange cuts) := by
  refine flatMap_splitRange_of_behind fun range hrange => ?_
  obtain ⟨t, ht, rfl⟩ := List.mem_map.mp hrange
  exact (htracks t ht).lo_le

namespace MotionDetector

variable {limit : Single} {previous : Option Frame} {index : Int32} {position : Int}

/-! ## One cut -/

/-- A track that holds the locations of two others, the one right behind the other. -/
structure Joined (t v u : Track) : Prop where
  range_eq : u.range = (t.range.1, v.range.2)
  entries_eq : u.locations.entries = t.locations.entries ++ v.locations.entries

theorem Joined.extendTrack {t v u : Track} {location : ImageLocation} (h : Joined t v u)
    (hv : EndsBefore index.toInt v) (hu : EndsBefore index.toInt u) :
    Joined t (extendTrack v index location) (extendTrack u index location) := by
  have hstart : u.range.1 = t.range.1 := by rw [h.range_eq]
  refine ⟨Prod.ext hstart rfl, ?_⟩
  rw [entries_extendTrack hv, entries_extendTrack hu, h.entries_eq, List.append_assoc]

/-- A track that went on before a cut stays joined to what it would be behind the cut. -/
theorem tracksFrom_joined {t v u : Track} {frames : List Frame} (h : Joined t v u)
    (hv : EndsBefore position v) (hu : EndsBefore position u)
    (hindex : frames = [] ∨ index.toInt = position) (hfits : position + frames.length ≤ 2 ^ 31) :
    ∃ v' u' rest, tracksFrom limit index previous (some v) frames = v' :: rest ∧
      tracksFrom limit index previous (some u) frames = u' :: rest ∧
      Joined t v' u' ∧ v'.range.1 = v.range.1 := by
  induction frames generalizing index previous v u position with
  | nil => exact ⟨v, u, [], rfl, rfl, h, rfl⟩
  | cons frame rest ih =>
    obtain rfl : index.toInt = position := hindex.resolve_left (List.cons_ne_nil _ _)
    cases hchange : change? limit previous frame with
    | none =>
      rw [tracksFrom_of_unchanged hchange, tracksFrom_of_unchanged hchange]
      exact ⟨v, u, _, rfl, rfl, h, rfl⟩
    | some difference =>
      rw [tracksFrom_of_changed hchange, tracksFrom_of_changed hchange]
      obtain ⟨hnext, hrest⟩ := next_of_cons hfits
      exact ih (h.extendTrack hv hu) (hv.extendTrack _) (hu.extendTrack _) hnext hrest

/-- Behind a cut, the track under way either is over or goes on with the first track there. -/
theorem tracksFrom_some (limit : Single) (previous : Option Frame) {t : Track}
    {back : List Frame} (ht : EndsBefore position t)
    (hindex : back = [] ∨ index.toInt = position) (hfits : position + back.length ≤ 2 ^ 31) :
    tracksFrom limit index previous (some t) back =
        t :: tracksFrom limit index previous none back ∨
      ∃ v u rest, tracksFrom limit index previous none back = v :: rest ∧
        tracksFrom limit index previous (some t) back = u :: rest ∧
        Joined t v u ∧ v.range.1 = position := by
  cases back with
  | nil => exact .inl rfl
  | cons frame rest =>
    obtain rfl : index.toInt = position := hindex.resolve_left (List.cons_ne_nil _ _)
    cases hchange : change? limit previous frame with
    | none =>
      rw [tracksFrom_of_unchanged hchange, tracksFrom_of_unchanged hchange]
      exact .inl rfl
    | some difference =>
      rw [tracksFrom_of_changed hchange, tracksFrom_of_changed hchange]
      obtain ⟨hnext, hrest⟩ := next_of_cons hfits
      have hjoined : Joined t (singleTrack index (locationOf frame difference))
          (extendTrack t index (locationOf frame difference)) := ⟨rfl, entries_extendTrack ht⟩
      have hsingle : Underway index.toInt (index.toInt + 1) (goOn none index _) :=
        underway_goOn (Int.le_refl _) (by simp) (locationOf frame difference)
      exact .inr (tracksFrom_joined hjoined hsingle.endsBefore (ht.extendTrack _) hnext hrest)

/-- A cut in a joined track takes it apart again. -/
theorem Joined.splitRange_eq {lo hi : Int} {t v u : Track} (h : Joined t v u)
    (ht : Underway lo position t) (hv : v.LiesIn position hi) (hstart : v.range.1 = position) :
    splitRange [position] u.range = [t.range, v.range] := by
  have hcrossed : u.range.1 < position ∧ position ≤ u.range.2 := by
    rw [h.range_eq]
    exact ⟨ht.start_lt, hstart ▸ hv.start_le_stop⟩
  rw [splitRange_of_crossed hcrossed, splitRange, h.range_eq, ← ht.stop_eq, ← hstart]

/-- To end the track under way at a cut leaves the locations as they are and divides the range
that goes on behind the cut. -/
theorem tracksFrom_under_cut (limit : Single) (previous : Option Frame) (back : List Frame)
    {lo : Int} {current : Option Track} (hcurrent : ∀ t ∈ current, Underway lo position t)
    (hindex : back = [] ∨ index.toInt = position) (hfits : position + back.length ≤ 2 ^ 31) :
    locationsOf (tracksFrom limit index previous current back) =
        locationsOf (current.toList ++ tracksFrom limit index previous none back) ∧
      (rangesOf (tracksFrom limit index previous current back)).flatMap (splitRange [position]) =
        rangesOf (current.toList ++ tracksFrom limit index previous none back) := by
  have hliesIn := liesIn_tracksFrom limit previous back hindex hfits
  have hbehind : ∀ tracks : List Track, (∀ t ∈ tracks, t.LiesIn position (position + back.length)) →
      (rangesOf tracks).flatMap (splitRange [position]) = rangesOf tracks := by
    intro tracks htracks
    rw [flatMap_splitRange_rangesOf_of_behind htracks]
    exact flatMap_splitRange_rangesOf_of_before htracks (by simp)
  cases current with
  | none => exact ⟨rfl, hbehind _ hliesIn⟩
  | some t =>
    have ht := hcurrent t rfl
    rcases tracksFrom_some limit previous ht.endsBefore hindex hfits with
      hover | ⟨v, u, rest, hnone, hsome, hjoined, hstart⟩
    · have hbefore : splitRange [position] t.range = [t.range] :=
        splitRange_of_before fun cut hcut => List.mem_singleton.mp hcut ▸ ht.liesIn.stop_lt
      rw [hover]
      refine ⟨rfl, ?_⟩
      have hrest := hbehind _ hliesIn
      rw [rangesOf, List.map_cons, List.flatMap_cons, hbefore]
      exact congrArg _ hrest
    · rw [hnone] at hliesIn
      have hrest := hbehind rest fun w hw => hliesIn w (List.mem_cons_of_mem _ hw)
      have hsplit := hjoined.splitRange_eq ht (hliesIn v List.mem_cons_self) hstart
      rw [hnone, hsome]
      constructor
      · simp [locationsOf, hjoined.entries_eq]
      · rw [rangesOf, List.map_cons, List.flatMap_cons, hsplit]
        exact congrArg ([t.range, v.range] ++ ·) hrest

/-- One cut leaves the locations as they are and divides the range that it crosses. -/
theorem tracksFrom_cut (limit : Single) (previous : Option Frame) (front back : List Frame)
    (hindex : front = [] ∨ index.toInt = position)
    (hback : back = [] ∨ (index + Int32.ofNat front.length).toInt = position + front.length)
    (hfits : position + front.length + back.length ≤ 2 ^ 31) :
    locationsOf (tracksFrom limit index previous none (front ++ back)) =
        locationsOf (tracksFrom limit index previous none front ++
          tracksFrom limit (index + Int32.ofNat front.length) (front.getLast?.or previous) none
            back) ∧
      (rangesOf (tracksFrom limit index previous none (front ++ back))).flatMap
          (splitRange [position + front.length]) =
        rangesOf (tracksFrom limit index previous none front ++
          tracksFrom limit (index + Int32.ofNat front.length) (front.getLast?.or previous) none
            back) := by
  obtain ⟨hover, hunder⟩ := liesIn_scan limit previous none front hindex (by omega)
    (Int.le_refl position) (by simp)
  obtain ⟨hlocations, hranges⟩ :=
    tracksFrom_under_cut limit (front.getLast?.or previous) back hunder hback hfits
  rw [tracksFrom_append, tracksFrom_eq_scan limit index previous none front, List.append_assoc]
  constructor
  · rw [locationsOf_append, locationsOf_append, hlocations]
  · rw [rangesOf_append, rangesOf_append, List.flatMap_append, hranges,
      flatMap_splitRange_rangesOf_of_before hover (by simp)]

/-! ## Jobs one after the other -/

/-- The answers to some jobs, one after the other. -/
def detectEach : List VideoJob → MotionDetector →
    List (Except DetectionError (List Track)) × MotionDetector
  | [], d => ([], d)
  | job :: rest, d =>
    let first := detect job d
    let later := detectEach rest first.2
    (first.1 :: later.1, later.2)

end MotionDetector

/-- Jobs whose frames follow one another from an index on, without a gap. -/
def Consecutive (position : Int) : List VideoJob → Prop
  | [] => True
  | job :: rest => job.startFrame.toInt = position ∧ Consecutive (position + job.frames.length) rest

instance decidableConsecutive : (position : Int) → (jobs : List VideoJob) →
    Decidable (Consecutive position jobs)
  | _, [] => .isTrue trivial
  | position, job :: rest =>
    have := decidableConsecutive (position + job.frames.length) rest
    inferInstanceAs (Decidable (_ ∧ _))

/-- Jobs begin no earlier than the first of them. -/
theorem Consecutive.le_startFrame {position : Int} {jobs : List VideoJob}
    (h : Consecutive position jobs) : ∀ job ∈ jobs, position ≤ job.startFrame.toInt := by
  induction jobs generalizing position with
  | nil => simp
  | cons first rest ih =>
    obtain ⟨hfirst, hrest⟩ := h
    intro job hjob
    rcases List.mem_cons.mp hjob with rfl | hjob
    · exact Int.le_of_eq hfirst.symm
    · have hle := ih hrest job hjob
      omega

/-- A job divided into jobs with the same threshold, some of them perhaps without frames. The
frames have indices. -/
structure VideoJob.Divided (whole : VideoJob) (jobs : List VideoJob) : Prop where
  frames_eq : whole.frames = jobs.flatMap (·.frames)
  consecutive : Consecutive whole.startFrame.toInt jobs
  threshold_eq : ∀ job ∈ jobs, job.property? MotionDetector.thresholdProperty =
    whole.property? MotionDetector.thresholdProperty
  last_le : whole.startFrame.toInt + whole.frames.length - 1 ≤ Int32.maxValue.toInt

namespace MotionDetector

variable {limit : Single} {index : Int32} {position : Int} {jobs : List VideoJob}

/-- Jobs that set the same threshold property have the same threshold. -/
theorem threshold_congr {job other : VideoJob}
    (h : job.property? thresholdProperty = other.property? thresholdProperty) :
    threshold job = threshold other := by
  rw [threshold, threshold, h]

/-- The first of some consecutive jobs begins at the position as an index. -/
theorem toInt_of_head? (hconsecutive : Consecutive position jobs)
    (hindex : ∀ job ∈ jobs.head?, job.startFrame = index) :
    jobs.flatMap (·.frames) = [] ∨ index.toInt = position := by
  cases jobs with
  | nil => exact .inl rfl
  | cons job rest => exact .inr (hindex job rfl ▸ hconsecutive.1)

/-- To divide ranges where some jobs begin is to divide them at the first of these places, and
what is found behind it where the other jobs begin. -/
theorem flatMap_splitRange_startFrames {job : VideoJob} {lo hi : Int} {F B W : List Track}
    (hjobs : Consecutive position (job :: jobs)) (hF : ∀ t ∈ F, t.LiesIn lo position)
    (hB : ∀ t ∈ B, t.LiesIn position hi)
    (hW : (rangesOf W).flatMap (splitRange [position]) = rangesOf (F ++ B)) :
    (rangesOf W).flatMap (splitRange ((job :: jobs).map (·.startFrame.toInt))) =
      rangesOf F ++
        (rangesOf B).flatMap (splitRange ((job :: jobs).map (·.startFrame.toInt))) := by
  obtain ⟨hjob, hrest⟩ := hjobs
  have hcuts : ∀ cut ∈ jobs.map (·.startFrame.toInt), position ≤ cut := by
    intro cut hcut
    obtain ⟨other, hother, rfl⟩ := List.mem_map.mp hcut
    have hle := hrest.le_startFrame other hother
    omega
  rw [List.map_cons, hjob, flatMap_splitRange_cons hcuts, hW, rangesOf_append, List.flatMap_append,
    flatMap_splitRange_rangesOf_of_before hF hcuts, flatMap_splitRange_rangesOf_of_behind hB]

/-- Consecutive jobs with one threshold against all of their frames at once. -/
theorem detectEach_of_consecutive (hconsecutive : Consecutive position jobs)
    (hthreshold : ∀ job ∈ jobs, threshold job = .ok limit)
    (hindex : ∀ job ∈ jobs.head?, job.startFrame = index)
    (hfits : position + (jobs.flatMap (·.frames)).length ≤ 2 ^ 31) (d : MotionDetector) :
    ∃ parts : List (List Track),
      detectEach jobs d = (parts.map .ok,
          { d with previous := (jobs.flatMap (·.frames)).getLast?.or d.previous }) ∧
        locationsOf parts.flatten =
          locationsOf (tracksFrom limit index d.previous none (jobs.flatMap (·.frames))) ∧
        rangesOf parts.flatten =
          (rangesOf (tracksFrom limit index d.previous none (jobs.flatMap (·.frames)))).flatMap
            (splitRange (jobs.map (·.startFrame.toInt))) := by
  induction jobs generalizing index position d with
  | nil => exact ⟨[], rfl, rfl, rfl⟩
  | cons job rest ih =>
    obtain ⟨hstart, hrest⟩ := hconsecutive
    obtain rfl : job.startFrame = index := hindex job rfl
    rw [List.flatMap_cons] at hfits ⊢
    rw [List.length_append] at hfits
    -- where the jobs behind this one begin
    have hnext : ∀ other ∈ rest.head?,
        other.startFrame = job.startFrame + Int32.ofNat job.frames.length := by
      intro other hother
      obtain ⟨others, rfl⟩ := List.head?_eq_some_iff.mp hother
      have hlt := other.startFrame.toInt_lt
      rw [hrest.1] at hlt
      exact Int32.toInt_inj.mp (hrest.1.trans (toInt_add_ofNat hstart hlt).symm)
    obtain ⟨parts, hparts, hlocations, hranges⟩ := ih hrest
      (fun other hother => hthreshold other (List.mem_cons_of_mem _ hother)) hnext
      (by omega) { d with previous := job.frames.getLast?.or d.previous }
    have hback := toInt_of_head? hrest hnext
    obtain ⟨hcutLocations, hcutRanges⟩ := tracksFrom_cut limit d.previous job.frames _
      (.inr hstart) hback (by omega)
    refine ⟨tracksFrom limit job.startFrame d.previous none job.frames :: parts, ?_, ?_, ?_⟩
    · rw [detectEach, detect, hthreshold job List.mem_cons_self, hparts, List.getLast?_append,
        Option.or_assoc]
      rfl
    · rw [List.flatten_cons, locationsOf_append, hlocations, hcutLocations, locationsOf_append]
    · have hfront := liesIn_tracksFrom limit d.previous job.frames (.inr hstart) (by omega)
      have hbehind := liesIn_tracksFrom limit (job.frames.getLast?.or d.previous) _ hback (by omega)
      have hwhole := liesIn_tracksFrom limit d.previous
        (job.frames ++ rest.flatMap (·.frames)) (.inr hstart) (by rw [List.length_append]; omega)
      rw [List.map_cons, hstart, flatMap_splitRange_rangesOf_of_behind hwhole, List.flatten_cons,
        rangesOf_append, hranges]
      cases rest with
      | nil =>
        have hnone :
            (rangesOf (tracksFrom limit job.startFrame d.previous none job.frames)).flatMap
                (splitRange []) =
              rangesOf (tracksFrom limit job.startFrame d.previous none job.frames) :=
          flatMap_splitRange_rangesOf_of_before hfront (by simp)
        simpa [tracksFrom, rangesOf] using hnone.symm
      | cons next others =>
        exact (flatMap_splitRange_startFrames hrest hfront hbehind hcutRanges).symm

/-- However a job is divided, its parts together show the same locations and leave the same frame
to compare with as the job itself, and their tracks have the same ranges, divided where a part
begins. -/
theorem detectEach_divided {whole : VideoJob} {jobs : List VideoJob} {limit : Single}
    (h : whole.Divided jobs) (hlimit : threshold whole = .ok limit) (d : MotionDetector) :
    ∃ (tracks : List Track) (parts : List (List Track)) (final : MotionDetector),
      detect whole d = (.ok tracks, final) ∧
        detectEach jobs d = (parts.map .ok, final) ∧
        locationsOf parts.flatten = locationsOf tracks ∧
        rangesOf parts.flatten =
          (rangesOf tracks).flatMap (splitRange (jobs.map (·.startFrame.toInt))) := by
  obtain ⟨hframes, hconsecutive, hthreshold, hlast⟩ := h
  rw [hframes] at hlast
  have hstart : ∀ job ∈ jobs.head?, job.startFrame = whole.startFrame := by
    intro job hjob
    obtain ⟨rest, rfl⟩ := List.head?_eq_some_iff.mp hjob
    exact Int32.toInt_inj.mp hconsecutive.1
  obtain ⟨parts, hparts, hlocations, hranges⟩ := detectEach_of_consecutive hconsecutive
    (fun job hjob => (threshold_congr (hthreshold job hjob)).trans hlimit) hstart
    (by rw [Int32.toInt_maxValue] at hlast; omega) d
  rw [detect, hlimit, hframes]
  exact ⟨_, parts, _, rfl, hparts, hlocations, hranges⟩

/-- A picture of one shade. -/
def samplePicture (shade : UInt8) : Frame where
  data := [shade, shade, shade]
  width := 1
  height := 1

/-- A job whose second and third frame have changed. -/
def sampleJob : VideoJob where
  jobName := "camera"
  startFrame := 0
  stopFrame := 3
  frames := [samplePicture 0, samplePicture 100, samplePicture 200, samplePicture 200]

/-- The sample job divided between the two changed frames, with an empty job in the middle. -/
def sampleParts : List VideoJob :=
  [{ sampleJob with stopFrame := 1, frames := [samplePicture 0, samplePicture 100] },
    { sampleJob with startFrame := 2, stopFrame := 1, frames := [] },
    { sampleJob with startFrame := 2, frames := [samplePicture 200, samplePicture 200] }]

theorem divided_sampleParts : sampleJob.Divided sampleParts where
  frames_eq := rfl
  consecutive := by decide
  threshold_eq := by decide
  last_le := by decide

/-- The track of the two changed frames is divided between them. -/
theorem detectEach_sampleParts :
    ∃ (tracks : List Track) (parts : List (List Track)) (final : MotionDetector),
      detect sampleJob {} = (.ok tracks, final) ∧
        detectEach sampleParts {} = (parts.map .ok, final) ∧
        locationsOf parts.flatten = locationsOf tracks ∧
        rangesOf tracks = [(1, 2)] ∧ rangesOf parts.flatten = [(1, 1), (2, 2)] := by
  obtain ⟨tracks, parts, final, hwhole, hparts, hlocations, hranges⟩ :=
    detectEach_divided divided_sampleParts (rfl : threshold sampleJob = .ok defaultThreshold) {}
  have htracks : tracksFrom defaultThreshold 0 none none sampleJob.frames = tracks :=
    Except.ok.inj (congrArg Prod.fst hwhole)
  have hrange : rangesOf tracks = [(1, 2)] := by
    rw [← htracks]
    decide +kernel
  refine ⟨tracks, parts, final, hwhole, hparts, hlocations, hrange, ?_⟩
  rw [hranges, hrange]
  rfl

end MotionDetector

end LiveDetection
