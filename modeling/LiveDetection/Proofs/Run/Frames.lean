import LiveDetection.Proofs.Run.Refinement
import LiveDetection.Rehearsal.Detector
import LiveDetection.Rehearsal.Publisher
import LiveDetection.Rehearsal.Source

/-!
# Segments are cut from the stream in order

However often a stream is lost and comes back, the frames that its source gives are handed to
the component in the order in which they came, a segment at a time, with none left out and none
twice: the segment number `k` holds the frames from `k` times the segment size on.
-/

namespace LiveDetection

namespace Event

/-- The frame that the source gave with the event. -/
def frame? : Event → Option Frame
  | read frame => frame
  | _ => none

/-- The segment handed over with the event, and the answer of the component. -/
def detection? : Event → Option (VideoJob × Except DetectionError (List Track))
  | detected job result => some (job, result)
  | _ => none

theorem Elapses.frame?_eq_none {e : Event} {now later : Nat} (h : e.Elapses now later) :
    e.frame? = none := by
  cases h <;> rfl

theorem Elapses.detection?_eq_none {e : Event} {now later : Nat} (h : e.Elapses now later) :
    e.detection? = none := by
  cases h <;> rfl

end Event

/-- The frames that the source gave, in order. -/
def framesOf (events : List Event) : List Frame := events.filterMap Event.frame?

/-- The segments handed over, in order, with the answers of the component. -/
def detectionsOf (events : List Event) : List (VideoJob × Except DetectionError (List Track)) :=
  events.filterMap Event.detection?

@[simp] theorem framesOf_append (front back : List Event) :
    framesOf (front ++ back) = framesOf front ++ framesOf back :=
  List.filterMap_append

@[simp] theorem framesOf_singleton (e : Event) : framesOf [e] = e.frame?.toList := by
  cases h : e.frame? <;> simp [framesOf, h]

@[simp] theorem detectionsOf_append (front back : List Event) :
    detectionsOf (front ++ back) = detectionsOf front ++ detectionsOf back :=
  List.filterMap_append

@[simp] theorem detectionsOf_singleton (e : Event) : detectionsOf [e] = e.detection?.toList := by
  cases h : e.detection? <;> simp [detectionsOf, h]

/-- The frames of the segment under way. -/
def Stage.pending : Stage → List Frame
  | .reading frames | .reconnecting frames | .stalled frames | .recovered frames => frames
  | _ => []

/-- What a step does to the frames. -/
inductive Intake (s : Standing) (e : Event) (t : Standing) : Prop
  /-- A frame comes in. -/
  | frame (frame : Frame) (he : e = .read (some frame))
    (ht : t.stage.pending = s.stage.pending ++ [frame]) (hnext : t.nextFrame = s.nextFrame)
  /-- All frames of a segment go out. -/
  | segment {stop : Int32} (hstop : s.stopFrame? = some stop)
    (hfull : s.stage.pending.length = s.config.segmentLength)
    (result : Except DetectionError (List Track))
    (he : e = .detected (s.videoJob stop s.stage.pending) result)
    (ht : t.stage.pending = []) (hnext : t.nextFrame = stop + 1)
  /-- The frames stay as they are, unless the run ends. -/
  | other (hframe : e.frame? = none) (hdetection : e.detection? = none)
    (ht : (∀ queue, t.stage ≠ .refused queue) → t.stage.pending = s.stage.pending)
    (hnext : t.nextFrame = s.nextFrame)

namespace Stage

theorem Retries.pending_next {stage : Stage} {next : Frame → Stage} (h : stage.Retries next)
    (frame : Frame) : (next frame).pending = stage.pending ++ [frame] := by
  cases h <;> rfl

theorem Summarises.pending {stage : Stage} {tracks : List Track} (h : stage.Summarises tracks) :
    stage.pending = [] := by
  cases h <;> rfl

theorem pending_afterPoll (status : ControlStatus) : (afterPoll status).pending = [] := by
  cases status <;> rfl

end Stage

/-- A report changes no frames. -/
theorem Intake.afterReport {s : Standing} {queue : String} {m : Message} {next : Stage}
    (h : next.pending = s.stage.pending) (accepted : Bool) :
    Intake s (.published queue m accepted) (s.afterReport queue accepted next) := by
  refine .other rfl rfl ?_ rfl
  cases accepted with
  | false => exact fun hopen => absurd rfl (hopen queue)
  | true => exact fun _ => h

theorem Step.intake {s t : Standing} {e : Event} (h : Step s e t) : Intake s e t := by
  cases h with
  | begun h accepted | stallReported h accepted | recoveryReported h accepted
  | stopReported h accepted => exact .afterReport (by rw [h]; rfl) accepted
  | alerted h hfirst accepted => exact .afterReport (by rw [h]; rfl) accepted
  | read h hroom hfits frame => exact .frame frame rfl (by rw [h]; rfl) rfl
  | reconnected h frame => exact .frame frame rfl (h.pending_next frame) rfl
  | lost h => exact .other rfl rfl (fun _ => by rw [h]; rfl) rfl
  | retried h he => exact .other he.frame?_eq_none he.detection?_eq_none (fun _ => rfl) rfl
  | detected h hfull hstop result =>
    exact .segment hstop (by rw [h]; exact hfull) result (by rw [h]; rfl) rfl rfl
  | summarised h => exact .other rfl rfl (fun _ => h.pending.symm) rfl
  | unsummarised h => exact .other rfl rfl (fun _ => h.pending.symm) rfl
  | polled h status =>
    exact .other rfl rfl (fun _ => (Stage.pending_afterPoll status).trans (by rw [h]; rfl)) rfl
  | finished h => exact .other rfl rfl (fun _ => by rw [h]; rfl) rfl

/-! ## Where a segment lies -/

/-- The segment of a number, as the component gets it. -/
structure JobConfig.IsSegment (c : JobConfig) (k : Nat) (job : VideoJob) : Prop where
  startFrame : job.startFrame.toInt = k * c.segmentSize.toInt
  stopFrame : job.stopFrame.toInt = (k + 1) * c.segmentSize.toInt - 1
  length : job.frames.length = c.segmentLength
  jobName : job.jobName = c.jobName
  jobProperties : job.jobProperties = c.jobProperties
  mediaProperties : job.mediaProperties = c.mediaProperties

theorem JobConfig.toInt_segmentSize {c : JobConfig} (h : 0 ≤ c.segmentSize) :
    c.segmentSize.toInt = c.segmentLength := by
  have hnonneg : (0 : Int) ≤ c.segmentSize.toInt := by
    simpa using Int32.le_iff_toInt_le.mp h
  rw [segmentLength, ← Int32.toNat_toInt, Int.toNat_of_nonneg hnonneg]

/-- A segment and the index behind it fit words. -/
theorem JobRun.toInt_of_stopFrame? {start size stop : Int32} (hsize : 0 ≤ size)
    (h : stopFrame? start size = some stop) :
    stop.toInt = start.toInt + size.toInt - 1 ∧ (stop + 1).toInt = start.toInt + size.toInt := by
  obtain ⟨hadd, hmax⟩ := Option.filter_eq_some_iff.mp h
  have hstop : stop.toInt = start.toInt + (size - 1).toInt :=
    toInt_of_int32OfInt?_eq_some hadd
  rw [toInt_pred hsize] at hstop
  rw [toInt_succ (of_decide_eq_true hmax)]
  omega

/-- How the frames that came in are shared out between the segments that went out and the one
under way. -/
structure Carved (c : JobConfig) (past : List Event) (s : Standing) : Prop where
  segments : ∀ k job result, (detectionsOf past)[k]? = some (job, result) → c.IsSegment k job
  frames : ∀ k job result, (detectionsOf past)[k]? = some (job, result) →
    job.frames = ((framesOf past).drop (k * c.segmentLength)).take c.segmentLength
  nextFrame : s.nextFrame.toInt = (detectionsOf past).length * c.segmentSize.toInt
  pending : (∀ queue, s.stage ≠ .refused queue) →
    (framesOf past).drop ((detectionsOf past).length * c.segmentLength) = s.stage.pending
  taken : (detectionsOf past).length * c.segmentLength ≤ (framesOf past).length

section

variable {α : Type} {l : List α}

theorem getElem?_concat_eq_some {x y : α} {k : Nat} (h : (l ++ [x])[k]? = some y) :
    l[k]? = some y ∨ k = l.length ∧ x = y := by
  rcases Nat.lt_or_ge k l.length with hk | hk
  · rw [List.getElem?_append_left hk] at h
    exact .inl h
  · rw [List.getElem?_append_right hk, List.getElem?_singleton] at h
    split at h
    · exact .inr ⟨by omega, Option.some.inj h⟩
    · cases h

/-- A full stretch of a list does not change when the list grows. -/
theorem eq_take_drop_append {part more : List α} {a n : Nat} (h : part = (l.drop a).take n)
    (hfull : part.length = n) : part = ((l ++ more).drop a).take n := by
  have hlong : n ≤ (l.drop a).length := by
    rw [h, List.length_take] at hfull
    omega
  rw [List.drop_append, List.take_append, Nat.sub_eq_zero_of_le hlong, List.take_zero,
    List.append_nil]
  exact h

end

namespace Carved

variable {c : JobConfig} {past : List Event} {s t : Standing} {e : Event}

theorem step (h : Carved c past s) (hc : s.config = c) (hsize : 0 ≤ c.segmentSize)
    (hstep : Step s e t) : Carved c (past ++ [e]) t := by
  subst hc
  have hpending := h.pending hstep.stage_ne_refused
  cases hstep.intake with
  | frame frame he ht hnext =>
    subst he
    have hframes : framesOf (past ++ [.read (some frame)]) = framesOf past ++ [frame] := by
      simp [Event.frame?]
    have hdetections : detectionsOf (past ++ [.read (some frame)]) = detectionsOf past := by
      simp [Event.detection?]
    constructor <;> simp only [hframes, hdetections]
    case segments => exact h.segments
    case frames =>
      intro k job result hk
      exact eq_take_drop_append (h.frames k job result hk) (h.segments k job result hk).length
    case nextFrame => rw [hnext, h.nextFrame]
    case pending =>
      intro _
      rw [List.drop_append_of_le_length h.taken, hpending, ht]
    case taken =>
      rw [List.length_append]
      exact Nat.le_add_right_of_le h.taken
  | @segment stop hstop hfull result he ht hnext =>
    subst he
    have hframes : framesOf (past ++ [.detected (s.videoJob stop s.stage.pending) result]) =
        framesOf past := by
      simp [Event.frame?]
    have hdetections : detectionsOf (past ++ [.detected (s.videoJob stop s.stage.pending) result]) =
        detectionsOf past ++ [(s.videoJob stop s.stage.pending, result)] := by
      simp [Event.detection?]
    have hcount : (detectionsOf past ++ [(s.videoJob stop s.stage.pending, result)]).length =
        (detectionsOf past).length + 1 :=
      List.length_append
    obtain ⟨hlast, hsucc⟩ := JobRun.toInt_of_stopFrame? hsize hstop
    have hsize' : ((detectionsOf past).length + 1 : Int) * s.config.segmentSize.toInt =
        s.nextFrame.toInt + s.config.segmentSize.toInt := by
      rw [Int.add_mul, Int.one_mul, h.nextFrame]
    rw [← hsize'] at hlast hsucc
    constructor <;> simp only [hframes, hdetections]
    case segments =>
      intro k job result hk
      rcases getElem?_concat_eq_some hk with hk | ⟨rfl, hjob⟩
      · exact h.segments k job result hk
      · cases hjob
        exact ⟨h.nextFrame, hlast, hfull, rfl, rfl, rfl⟩
    case frames =>
      intro k job result hk
      rcases getElem?_concat_eq_some hk with hk | ⟨rfl, hjob⟩
      · exact h.frames k job result hk
      · cases hjob
        rw [hpending, ← hfull, List.take_length]
        rfl
    case nextFrame =>
      rw [hnext, hsucc, hcount, Int.natCast_succ]
    case pending =>
      intro _
      rw [hcount, Nat.succ_mul, ← List.drop_drop, hpending, ht, ← hfull, List.drop_length]
    case taken =>
      have hlength := congrArg List.length hpending
      rw [List.length_drop, hfull] at hlength
      rw [hcount, Nat.succ_mul]
      have htaken := h.taken
      omega
  | other hframe hdetection ht hnext =>
    have hframes : framesOf (past ++ [e]) = framesOf past := by simp [hframe]
    have hdetections : detectionsOf (past ++ [e]) = detectionsOf past := by simp [hdetection]
    constructor <;> simp only [hframes, hdetections]
    case segments => exact h.segments
    case frames => exact h.frames
    case nextFrame => rw [hnext, h.nextFrame]
    case pending => exact fun hopen => hpending.trans (ht hopen).symm
    case taken => exact h.taken

/-- Segments that are not empty have numbers that are words. -/
theorem length_lt (h : Carved c past s) (hsize : 0 < c.segmentSize) :
    (detectionsOf past).length < 2 ^ 31 := by
  have hpos : (0 : Int) < c.segmentSize.toInt := by
    simpa using Int32.lt_iff_toInt_lt.mp hsize
  have hle : ((detectionsOf past).length : Int) * 1 ≤
      (detectionsOf past).length * c.segmentSize.toInt :=
    Int.mul_le_mul_of_nonneg_left hpos (Int.natCast_nonneg _)
  rw [← h.nextFrame] at hle
  have hlt := s.nextFrame.toInt_lt
  omega

end Carved

/-- The frames of a run that starts at the first frame are shared out between its segments. -/
theorem Steps.carved {s t : Standing} {events : List Event} (h : Steps s events t)
    (hs : s.stage = .starting) (hnext : s.nextFrame = 0) (hsize : 0 ≤ s.config.segmentSize) :
    Carved s.config events t := by
  induction h with
  | refl => exact ⟨by simp [detectionsOf], by simp [detectionsOf], by simp [hnext, detectionsOf],
      by simp [hs, detectionsOf, framesOf, Stage.pending], by simp [detectionsOf]⟩
  | step h hstep ih => exact ih.step h.config_eq hsize hstep

/-! ## The frames of a segment -/

/-- A segment is one cut from the frames of a stream. -/
structure JobConfig.Cuts (c : JobConfig) (frames : List Frame) (k : Nat) (job : VideoJob) : Prop
    extends c.IsSegment k job where
  frames_eq : job.frames = (frames.drop (k * c.segmentLength)).take c.segmentLength
  /-- Inside the segment, an index is that of the frame in the whole stream. -/
  frame?_inside : ∀ i : Int32, job.startFrame ≤ i → i ≤ job.stopFrame →
    ∃ frame, frames[i.toNatClampNeg]? = some frame ∧ job.frame? i = some frame
  frame?_outside : ∀ i : Int32, i < job.startFrame ∨ job.stopFrame < i → job.frame? i = none

namespace JobConfig.IsSegment

variable {c : JobConfig} {k : Nat} {job : VideoJob} {i : Int32}

theorem toInt_startFrame (h : c.IsSegment k job) (hsize : 0 ≤ c.segmentSize) :
    job.startFrame.toInt = (k * c.segmentLength : Nat) := by
  rw [h.startFrame, toInt_segmentSize hsize, Int.natCast_mul]

theorem toInt_stopFrame (h : c.IsSegment k job) (hsize : 0 ≤ c.segmentSize) :
    job.stopFrame.toInt = (k * c.segmentLength : Nat) + c.segmentLength - 1 := by
  rw [h.stopFrame, toInt_segmentSize hsize, Int.add_mul, Int.one_mul, Int.natCast_mul]

/-- From the first frame on, an offset into the segment is a word, because the first frame is
not negative. -/
theorem frame?_of_le (h : c.IsSegment k job) (hsize : 0 ≤ c.segmentSize)
    (hi : job.startFrame ≤ i) :
    job.frame? i = job.frames[i.toNatClampNeg - k * c.segmentLength]? := by
  have hstart := h.toInt_startFrame hsize
  have hle := Int32.le_iff_toInt_le.mp hi
  have hlt := i.toInt_lt
  have hfits : subInt32? i job.startFrame = some (Int32.ofInt (i.toInt - job.startFrame.toInt)) :=
    if_pos ⟨by rw [Int32.toInt_minValue]; omega, by rw [Int32.toInt_maxValue]; omega⟩
  have hoffset := toInt_of_int32OfInt?_eq_some hfits
  have hnonneg : 0 ≤ Int32.ofInt (i.toInt - job.startFrame.toInt) := by
    rw [Int32.le_iff_toInt_le, Int32.toInt_zero, hoffset]
    omega
  have hindex : (Int32.ofInt (i.toInt - job.startFrame.toInt)).toNatClampNeg =
      i.toNatClampNeg - k * c.segmentLength := by
    rw [← Int32.toNat_toInt, ← Int32.toNat_toInt, hoffset]
    omega
  simp only [VideoJob.frame?, hfits, if_pos hnonneg, hindex]

theorem frame?_of_lt (hi : i < job.startFrame) : job.frame? i = none := by
  have hlt := Int32.lt_iff_toInt_lt.mp hi
  rw [VideoJob.frame?]
  cases hoffset : subInt32? i job.startFrame with
  | none => rfl
  | some offset =>
    have hvalue : offset.toInt = i.toInt - job.startFrame.toInt :=
      toInt_of_int32OfInt?_eq_some hoffset
    have hneg : ¬ 0 ≤ offset := by
      rw [Int32.le_iff_toInt_le, Int32.toInt_zero, hvalue]
      omega
    exact if_neg hneg

theorem cuts (h : c.IsSegment k job) (hsize : 0 ≤ c.segmentSize) {frames : List Frame}
    (hframes : job.frames = (frames.drop (k * c.segmentLength)).take c.segmentLength) :
    c.Cuts frames k job := by
  have hstart := h.toInt_startFrame hsize
  have hstop := h.toInt_stopFrame hsize
  refine ⟨h, hframes, fun i hi hi' => ?_, fun i hi => ?_⟩
  · have hle := Int32.le_iff_toInt_le.mp hi
    have hle' := Int32.le_iff_toInt_le.mp hi'
    have hindex : i.toNatClampNeg - k * c.segmentLength < job.frames.length := by
      rw [h.length, ← Int32.toNat_toInt]
      omega
    have hsum : k * c.segmentLength + (i.toNatClampNeg - k * c.segmentLength) =
        i.toNatClampNeg := by
      rw [← Int32.toNat_toInt]
      omega
    have hsame : job.frames[i.toNatClampNeg - k * c.segmentLength]? = frames[i.toNatClampNeg]? := by
      rw [hframes, List.getElem?_take_of_lt (h.length ▸ hindex), List.getElem?_drop, hsum]
    have hget := List.getElem?_eq_getElem hindex
    exact ⟨_, hsame.symm.trans hget, (h.frame?_of_le hsize hi).trans hget⟩
  · rcases hi with hi | hi
    · exact frame?_of_lt hi
    · have hlt := Int32.lt_iff_toInt_lt.mp hi
      have hle : job.startFrame ≤ i := by
        rw [Int32.le_iff_toInt_le]
        omega
      rw [h.frame?_of_le hsize hle, List.getElem?_eq_none_iff, h.length, ← Int32.toNat_toInt]
      omega

end JobConfig.IsSegment

section

variable [Resolution] {σ δ π : Type} [VideoSource σ] [Detector δ] [Publisher π]

/-- Whatever the source does, no frame is lost, doubled or moved: segment number `k` is the one
cut from the frames that the source gave. -/
theorem JobRun.cuts_of_detectionsOf {e : JobRun σ δ π} (hfirst : e.nextFrame = 0)
    (hsize : 0 ≤ e.config.segmentSize) (polls : List ControlStatus) {k : Nat} {job : VideoJob}
    {result : Except DetectionError (List Track)}
    (hk : (detectionsOf ((run polls).run e).events)[k]? = some (job, result)) :
    e.config.Cuts (framesOf ((run polls).run e).events) k job := by
  obtain ⟨t, hsteps, -⟩ := leads_run polls rfl e (standsAt_standing e .starting)
  have hcarved := hsteps.carved rfl hfirst hsize
  exact (hcarved.segments k job result hk).cuts hsize (hcarved.frames k job result hk)

end

/-- A run with segments of two frames. Its stream fails in the middle of either segment; its
component finds two tracks in the first, one of which lies outside, and fails in the second. -/
def sampleRun : JobRun Rehearsal.CuedSource Rehearsal.CuedDetector Rehearsal.Recorder where
  config := {
    jobName := "lobby"
    jobNumber := 3
    streamUri := "rtsp://cam/1"
    segmentSize := 2
    component := { libraryPath := "libdetect.so" }
    transport := ⟨"failover://broker", "status", "alerts", "summaries"⟩ }
  stream := ⟨{ reads := [true, false, true, true, false, false, true] }, "rtsp://cam/1", 0⟩
  detector := {
    results := [
      .ok [{ startFrame := 0, stopFrame := 5, confidence := .one },
        { startFrame := 7, stopFrame := 9, confidence := .one }],
      .error (.detectionFailed "out of memory")] }
  publisher := {}
  epochMillis := fun occasion => Int64.ofNat (occasion.now / 1000)

/-- The second segment of the sample run holds the third and the fourth frame. -/
theorem cuts_sampleRun : ∃ job result,
    (detectionsOf ((JobRun.run [.proceed]).run sampleRun).events)[1]? = some (job, result) ∧
    sampleRun.config.Cuts (framesOf ((JobRun.run [.proceed]).run sampleRun).events) 1 job := by
  have hsome :
      (detectionsOf ((JobRun.run [.proceed]).run sampleRun).events)[1]?.isSome := by
    decide +kernel
  obtain ⟨⟨job, result⟩, hk⟩ := Option.isSome_iff_exists.mp hsome
  exact ⟨job, result, hk, JobRun.cuts_of_detectionsOf rfl (by decide) [.proceed] hk⟩

end LiveDetection
