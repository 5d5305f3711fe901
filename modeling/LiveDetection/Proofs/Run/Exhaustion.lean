import LiveDetection.Launch.Machine
import LiveDetection.Proofs.Run.Summaries
import LiveDetection.Proofs.Run.Waiting

/-!
# Runs that use up the frame indices

A run counts its segments and their frames in words. Between two segments both counts are exact, as
the frames are at least as many as the segments and a segment begins only if its frames have
indices. So a run that nothing else ends is over when there are no more indices for a whole segment,
and the segment without indices leaves no trace.
-/

namespace LiveDetection

/-! ## Accepted settings -/

namespace JobConfig

variable {c : JobConfig}

/-- For how many segments there are frame indices. -/
def segmentLimit (c : JobConfig) : Nat := (2 ^ 31 - 1) / c.segmentLength

theorem check_of_validate (h : c.validate = .ok c) : c.check = .ok () := by
  rw [validate] at h
  cases hcheck : c.check with
  | ok => rfl
  | error fault =>
    rw [hcheck] at h
    cases h

/-- Segments and frames of accepted settings are not empty. -/
theorem sizes_of_validate (h : c.validate = .ok c) :
    1 ≤ c.segmentSize ∧ 1 ≤ c.frameWidth ∧ 1 ≤ c.frameHeight := by
  have hcheck := check_of_validate h
  rw [check] at hcheck
  obtain ⟨-, -, hcheck⟩ := bind_eq_ok.mp hcheck
  obtain ⟨-, -, hcheck⟩ := bind_eq_ok.mp hcheck
  simp only [] at hcheck
  split at hcheck
  · cases hcheck
  · next hsegment =>
    split at hcheck
    · cases hcheck
    · next hframe =>
      obtain ⟨hwidth, hheight⟩ := not_or.mp hframe
      exact ⟨Int32.not_lt.mp hsegment, Int32.not_lt.mp hwidth, Int32.not_lt.mp hheight⟩

theorem one_le_toInt {n : Int32} (h : 1 ≤ n) : 1 ≤ n.toInt := by
  simpa using Int32.le_iff_toInt_le.mp h

/-- A word that is not negative is less than `2 ^ 31`. -/
theorem toNatClampNeg_bounds {n : Int32} (h : 1 ≤ n) :
    1 ≤ n.toNatClampNeg ∧ n.toNatClampNeg ≤ 2 ^ 31 - 1 := by
  have hpos := one_le_toInt h
  have hlt := n.toInt_lt
  rw [← Int32.toNat_toInt]
  omega

end JobConfig

/-- There is room for one more segment as long as the limit is not reached. -/
theorem JobConfig.lt_segmentLimit_iff {c : JobConfig} (hsize : 1 ≤ c.segmentSize) {k : Nat} :
    k < c.segmentLimit ↔ k * c.segmentSize.toInt + c.segmentSize.toInt < 2 ^ 31 := by
  have hpos : 0 < c.segmentLength := (toNatClampNeg_bounds hsize).1
  have hlength : c.segmentSize.toInt = c.segmentLength :=
    toInt_segmentSize (Int32.le_trans (by decide) hsize)
  rw [segmentLimit, ← Nat.succ_le_iff, Nat.le_div_iff_mul_le hpos, Nat.succ_mul, hlength,
    ← Int.natCast_mul]
  omega

theorem JobConfig.segmentLimit_bounds {c : JobConfig} (hsize : 1 ≤ c.segmentSize) :
    1 ≤ c.segmentLimit ∧ c.segmentLimit ≤ 2 ^ 31 - 1 := by
  obtain ⟨hpos, hle⟩ := toNatClampNeg_bounds hsize
  exact ⟨Nat.div_pos hle hpos, Nat.div_le_self _ _⟩

/-- A picture of an accepted size has a size that is a word of 64 bits. -/
theorem DecoderSource.pictureSize_bounds {ℓ : Type} {s : DecoderSource ℓ} (hwidth : 1 ≤ s.width)
    (hheight : 1 ≤ s.height) : 3 ≤ s.pictureSize ∧ s.pictureSize ≤ 2 ^ 64 - 1 := by
  obtain ⟨hw, hw'⟩ := JobConfig.toNatClampNeg_bounds hwidth
  obtain ⟨hh, hh'⟩ := JobConfig.toNatClampNeg_bounds hheight
  have hpos : 1 * 1 ≤ s.width.toNatClampNeg * s.height.toNatClampNeg := Nat.mul_le_mul hw hh
  have hle : s.width.toNatClampNeg * s.height.toNatClampNeg ≤ (2 ^ 31 - 1) * (2 ^ 31 - 1) :=
    Nat.mul_le_mul hw' hh'
  rw [pictureSize]
  omega

namespace JobRun

/-- A segment has indices, and so has the frame behind it, if there is room for its frames. -/
theorem isSome_stopFrame?_iff {start size : Int32} (hsize : 1 ≤ size) :
    (stopFrame? start size).isSome ↔ start.toInt + size.toInt < 2 ^ 31 := by
  have hpos := JobConfig.one_le_toInt hsize
  have habove := start.le_toInt
  have hpred : (size - 1).toInt = size.toInt - 1 := toInt_pred (Int32.le_trans (by decide) hsize)
  rw [stopFrame?, addInt32?]
  cases hadd : int32OfInt? (start.toInt + (size - 1).toInt) with
  | some stop =>
    have hstop := toInt_of_int32OfInt?_eq_some hadd
    have hroom : stop < Int32.maxValue ↔ start.toInt + size.toInt < 2 ^ 31 := by
      rw [Int32.lt_iff_toInt_lt, Int32.toInt_maxValue]
      omega
    simp [hroom]
  | none =>
    have hnot : ¬ start.toInt + size.toInt < 2 ^ 31 := by
      intro hlt
      have hfits : Int32.minValue.toInt ≤ start.toInt + (size - 1).toInt ∧
          start.toInt + (size - 1).toInt ≤ Int32.maxValue.toInt := by
        rw [Int32.toInt_minValue, Int32.toInt_maxValue]
        omega
      rw [int32OfInt?, if_pos hfits] at hadd
      cases hadd
    simpa using hnot

/-! ## What may end a segment -/

/-- A queue has not taken a message, or the stream has not come back. -/
inductive Interrupted {α : Type} : Ending α → Prop
  | unpublished (queue reason : String) : Interrupted (.failed (publishError queue reason))
  | stalled (uri : String) (timeout : UInt64) : Interrupted (.failed (stallError uri timeout))
  | waiting : Interrupted .waiting

variable {σ δ π α β : Type}

/-- What interrupts a session interrupts the whole sequence. -/
theorem Interrupted.bind {p : Session Event (JobRun σ δ π) β}
    {f : β → Session Event (JobRun σ δ π) α} {e : JobRun σ δ π}
    (h : Interrupted (p.run e).ending) : Interrupted ((p >>= f).run e).ending := by
  rcases hrun : p.run e with ⟨ending, events, world⟩
  rw [hrun] at h
  cases h with
  | unpublished queue reason =>
    rw [Session.run_bind_failed hrun]
    exact .unpublished queue reason
  | stalled uri timeout =>
    rw [Session.run_bind_failed hrun]
    exact .stalled uri timeout
  | waiting =>
    rw [Session.run_bind_waiting hrun]
    exact .waiting

/-- The settings and the counts of a run. -/
structure CountsAre (c : JobConfig) (frame segment : Int32) (e : JobRun σ δ π) : Prop where
  config_eq : e.config = c
  nextFrame_eq : e.nextFrame = frame
  segmentNumber_eq : e.segmentNumber = segment

/-- A session that is not interrupted has a value, and leads from worlds of one kind to worlds of
another. -/
def Ensures (P : JobRun σ δ π → Prop) (p : Session Event (JobRun σ δ π) α)
    (R : JobRun σ δ π → Prop) : Prop :=
  ∀ e, P e → (∃ a, (p.run e).ending = .value a) ∧ R (p.run e).world ∨
    Interrupted (p.run e).ending

namespace Ensures

variable {P Q R : JobRun σ δ π → Prop}

theorem pure (a : α) : Ensures P (Pure.pure a : Session Event (JobRun σ δ π) α) P :=
  fun _ he => .inl ⟨⟨a, rfl⟩, he⟩

theorem fail {error : RunError} (h : Interrupted (.failed error : Ending α)) :
    Ensures P (Session.fail error : Session Event (JobRun σ δ π) α) R :=
  fun _ _ => .inr h

theorem act {step : JobRun σ δ π → α × List Event × JobRun σ δ π}
    (h : ∀ e, P e → R (step e).2.2) : Ensures P (Session.act step) R :=
  fun e he => .inl ⟨⟨_, rfl⟩, h e he⟩

theorem update {change : JobRun σ δ π → JobRun σ δ π} (h : ∀ e, P e → R (change e)) :
    Ensures P (.update change) R :=
  fun e he => .inl ⟨⟨_, rfl⟩, h e he⟩

theorem bind {p : Session Event (JobRun σ δ π) β} {f : β → Session Event (JobRun σ δ π) α}
    (hp : Ensures P p Q) (hf : ∀ b, Ensures Q (f b) R) : Ensures P (p >>= f) R := by
  intro e he
  rcases hp e he with ⟨⟨b, hb⟩, hQ⟩ | hbad
  · rw [Session.run_bind_value (Session.run_of_ending hb)]
    exact hf b _ hQ
  · exact .inr hbad.bind

theorem world_of_value {p : Session Event (JobRun σ δ π) α} (h : Ensures P p R)
    {e w : JobRun σ δ π} (he : P e) {a : α} {events : List Event}
    (hrun : p.run e = ⟨.value a, events, w⟩) : R w := by
  have hend := h e he
  rw [hrun] at hend
  rcases hend with ⟨-, hR⟩ | hbad
  · exact hR
  · cases hbad

/-- Looking at the world changes nothing. -/
theorem world {f : JobRun σ δ π → Session Event (JobRun σ δ π) α}
    (h : ∀ e, P e → Ensures P (f e) R) : Ensures P (Session.world >>= f) R := by
  intro e he
  rw [Session.run_bind_value (Session.run_world e)]
  exact h e he e he

end Ensures

/-! ## Sessions that leave the counts alone -/

section

variable {c : JobConfig} {f n : Int32}

/-- The session leaves the counts as they are. -/
abbrev Keeps (c : JobConfig) (f n : Int32) (p : Session Event (JobRun σ δ π) α) : Prop :=
  Ensures (CountsAre c f n) p (CountsAre c f n)

theorem keeps_onStream {p : Session Event (LiveStream σ) α}
    (h : ∀ s, (∃ a, (p.run s).ending = .value a) ∨ Interrupted (p.run s).ending) :
    Keeps c f n (onStream p : Session Event (JobRun σ δ π) α) := by
  intro e he
  exact (h e.stream).imp_left fun hvalue => ⟨hvalue, he.config_eq, he.nextFrame_eq,
    he.segmentNumber_eq⟩

theorem keeps_send [Publisher π] {ρ : Type} [Wire ρ] (queue : String) (report : ρ) :
    Keeps c f n (send queue report : Session Event (JobRun σ δ π) Unit) := by
  intro e he
  cases hm : Wire.toMessage report with
  | error error =>
    rw [run_send_error hm]
    exact .inr (.unpublished queue error.message)
  | ok m =>
    rw [run_send hm]
    cases (Publisher.publish queue m e.publisher).1 with
    | ok => exact .inl ⟨⟨(), rfl⟩, he.config_eq, he.nextFrame_eq, he.segmentNumber_eq⟩
    | error error => exact .inr (.unpublished queue error.message)

theorem keeps_reportPhase [Publisher π] (phase : RunPhase) :
    Keeps c f n (reportPhase phase : Session Event (JobRun σ δ π) Unit) :=
  .world fun _ _ => keeps_send _ _

theorem keeps_detect [Detector δ] (job : VideoJob) :
    Keeps c f n (detect job : Session Event (JobRun σ δ π) (List Track)) := by
  refine .bind (Q := CountsAre c f n) (.act fun e he => ?_) ?_
  · exact ⟨he.config_eq, he.nextFrame_eq, he.segmentNumber_eq⟩
  · rintro (error | tracks)
    · exact .pure []
    · exact .pure tracks

variable [VideoSource σ]

variable [Resolution]

theorem keeps_reconnectFor (duration : Nat) :
    Keeps c f n (onStream (LiveStream.reconnectFor duration) : Session Event (JobRun σ δ π) _) :=
  keeps_onStream fun _ => .inl ⟨_, rfl⟩

theorem keeps_recover : Keeps c f n (recover : Session Event (JobRun σ δ π) Frame) := by
  refine .world fun e _ => ?_
  cases e.config.stallTimeout with
  | none =>
    refine keeps_onStream fun s => ?_
    simp only [LiveStream.reconnect]
    split
    · exact .inl ⟨_, rfl⟩
    · exact .inr .waiting
  | some timeout =>
    refine .bind (keeps_reconnectFor _) ?_
    rintro (_ | frame)
    · exact .fail (.stalled e.stream.uri timeout)
    · exact .pure frame

variable [Publisher π]

theorem keeps_awaitFrame : Keeps c f n (awaitFrame : Session Event (JobRun σ δ π) Frame) := by
  refine .bind (keeps_onStream fun _ => .inl ⟨_, rfl⟩) ?_
  rintro (_ | frame)
  · refine .world fun e _ => ?_
    refine .bind (keeps_reconnectFor _) ?_
    rintro (_ | frame)
    · refine .bind (keeps_reportPhase .stalled) fun _ => ?_
      refine .bind keeps_recover fun frame => ?_
      exact .bind (keeps_reportPhase .inProgress) fun _ => .pure frame
    · exact .pure frame
  · exact .pure frame

theorem keeps_awaitFrames (k : Nat) :
    Keeps c f n (awaitFrames k : Session Event (JobRun σ δ π) (List Frame)) := by
  induction k with
  | zero => exact .pure []
  | succ k ih => exact .bind keeps_awaitFrame fun _ => .bind ih fun _ => .pure _

/-- A segment with indices moves both counts on. -/
theorem ensures_runSegment [Detector δ] {stop : Int32}
    (hstop : stopFrame? f c.segmentSize = some stop) :
    Ensures (CountsAre c f n) (runSegment : Session Event (JobRun σ δ π) Unit)
      (CountsAre c (stop + 1) (n + 1)) := by
  have hsummary (tracks : List Track) (queue : String) (segment : Int32) :
      Ensures (CountsAre c (stop + 1) n)
        (do
          send queue (⟨c.job, segment, tracks⟩ : SegmentSummary)
          .update fun e => { e with segmentNumber := e.segmentNumber + 1 } :
            Session Event (JobRun σ δ π) Unit)
        (CountsAre c (stop + 1) (n + 1)) :=
    .bind (keeps_send _ _) fun _ => .update fun e he =>
      ⟨he.config_eq, he.nextFrame_eq, congrArg (· + 1) he.segmentNumber_eq⟩
  refine .world fun e he => ?_
  simp only [he.config_eq, he.nextFrame_eq, hstop]
  refine .bind (keeps_awaitFrames _) fun frames => ?_
  refine .bind (Q := CountsAre c (stop + 1) n) (.update fun e he => ?_) fun _ => ?_
  · exact ⟨he.config_eq, rfl, he.segmentNumber_eq⟩
  refine .bind (keeps_detect _) fun found => ?_
  cases firstActivity? (repairTracks found f stop) with
  | none => exact hsummary _ _ _
  | some frameIndex =>
    refine .world fun now _ => ?_
    exact .bind (keeps_send _ _) fun _ => hsummary _ _ _

end

/-! ## Segments in a row -/

section

variable [Resolution] [VideoSource σ] [Detector δ] [Publisher π]

/-- A run is between two segments: it has reported that the job is in progress, and has completed a
number of segments. -/
inductive Completes (e : JobRun σ δ π) : Nat → JobRun σ δ π → Prop
  | begun {events : List Event} {w : JobRun σ δ π}
    (hrun : (reportPhase .inProgress).run e = ⟨.value (), events, w⟩) : Completes e 0 w
  | segment {k : Nat} {events : List Event} {w w' : JobRun σ δ π} (h : Completes e k w)
    (hrun : runSegment.run w = ⟨.value (), events, w'⟩) : Completes e (k + 1) w'

/-- The counts behind a number of segments, none of which has wrapped. -/
structure CountsExactly (c : JobConfig) (k : Nat) (w : JobRun σ δ π) : Prop where
  config_eq : w.config = c
  segmentNumber_eq : w.segmentNumber.toInt = k
  nextFrame_eq : w.nextFrame.toInt = k * c.segmentSize.toInt
  le_limit : k ≤ c.segmentLimit

/-- Without indices for it, a segment fails before anything happens. -/
theorem run_runSegment_of_none {w : JobRun σ δ π}
    (h : stopFrame? w.nextFrame w.config.segmentSize = none) :
    runSegment.run w = ⟨.failed (overflowError w.segmentNumber), [], w⟩ := by
  rw [runSegment, Session.run_bind_value (Session.run_world w)]
  simp only [h]
  rfl

variable {e w : JobRun σ δ π} {k : Nat}

omit [Resolution] [VideoSource σ] [Detector δ] [Publisher π] in
theorem CountsExactly.isSome_iff (h : CountsExactly e.config k w)
    (hsize : 1 ≤ e.config.segmentSize) :
    (stopFrame? w.nextFrame w.config.segmentSize).isSome ↔ k < e.config.segmentLimit := by
  rw [h.config_eq, isSome_stopFrame?_iff hsize, JobConfig.lt_segmentLimit_iff hsize,
    h.nextFrame_eq]

omit [Resolution] [VideoSource σ] [Detector δ] [Publisher π] in
/-- The number of a segment that has indices is not the greatest word. -/
theorem CountsExactly.toInt_succ_segmentNumber {c : JobConfig} (h : CountsExactly c k w)
    (hsize : 1 ≤ c.segmentSize) (hlt : k < c.segmentLimit) :
    (w.segmentNumber + 1).toInt = w.segmentNumber.toInt + 1 := by
  have hbound := (JobConfig.segmentLimit_bounds hsize).2
  refine toInt_succ (Int32.lt_iff_toInt_lt.mpr ?_)
  rw [h.segmentNumber_eq, Int32.toInt_maxValue]
  omega

theorem countsExactly_of_completes (hsize : 1 ≤ e.config.segmentSize) (hframe : e.nextFrame = 0)
    (hnumber : e.segmentNumber = 0) (h : Completes e k w) : CountsExactly e.config k w := by
  induction h with
  | begun hrun =>
    have hcounts : CountsAre e.config 0 0 _ :=
      (keeps_reportPhase .inProgress).world_of_value ⟨rfl, hframe, hnumber⟩ hrun
    refine ⟨hcounts.config_eq, ?_, ?_, Nat.zero_le _⟩
    · simp [hcounts.segmentNumber_eq]
    · simp [hcounts.nextFrame_eq]
  | @segment k events w w' h hrun ih =>
    have hroom := ih.isSome_iff hsize
    cases hstop : stopFrame? w.nextFrame w.config.segmentSize with
    | none =>
      rw [run_runSegment_of_none hstop] at hrun
      cases hrun
    | some stop =>
      have hlt : k < e.config.segmentLimit := hroom.mp (Option.isSome_of_eq_some hstop)
      rw [ih.config_eq] at hstop
      have hcounts := (ensures_runSegment hstop).world_of_value ⟨ih.config_eq, rfl, rfl⟩ hrun
      have hnext := (toInt_of_stopFrame? (Int32.le_trans (by decide) hsize) hstop).2
      refine ⟨hcounts.config_eq, ?_, ?_, hlt⟩
      · rw [hcounts.segmentNumber_eq, ih.toInt_succ_segmentNumber hsize hlt, ih.segmentNumber_eq]
        rfl
      · rw [hcounts.nextFrame_eq, hnext, ih.nextFrame_eq, Int.natCast_succ, Int.add_mul,
          Int.one_mul]

/-- What a segment computes behind a number of others, without wrapping. -/
structure ComputesExactly (c : JobConfig) (k : Nat) (w : JobRun σ δ π) : Prop
    extends CountsExactly c k w where
  segmentNumber_le : w.segmentNumber ≤ w.nextFrame
  pred_eq : (c.segmentSize - 1).toInt = c.segmentSize.toInt - 1
  /-- The segment has indices as long as the limit is not reached. -/
  isSome_iff : (stopFrame? w.nextFrame c.segmentSize).isSome ↔ k < c.segmentLimit
  /-- The index of its last frame, the one behind it, and the number of the next segment. -/
  stop_eq : ∀ stop ∈ stopFrame? w.nextFrame c.segmentSize,
    stop.toInt = w.nextFrame.toInt + c.segmentSize.toInt - 1 ∧
      (stop + 1).toInt = stop.toInt + 1 ∧
      (w.segmentNumber + 1).toInt = w.segmentNumber.toInt + 1
  /-- A segment without indices fails and leaves no trace. -/
  run_eq : k = c.segmentLimit →
    runSegment.run w = ⟨.failed (overflowError w.segmentNumber), [], w⟩

theorem CountsExactly.computesExactly {c : JobConfig} (h : CountsExactly c k w)
    (hsize : 1 ≤ c.segmentSize) : ComputesExactly c k w := by
  obtain rfl := h.config_eq
  have hnonneg : 0 ≤ w.config.segmentSize := Int32.le_trans (by decide) hsize
  have hpos := JobConfig.one_le_toInt hsize
  have hroom := h.isSome_iff hsize
  refine ⟨h, ?_, toInt_pred hnonneg, hroom, ?_, ?_⟩
  · have hle : (k : Int) * 1 ≤ k * w.config.segmentSize.toInt :=
      Int.mul_le_mul_of_nonneg_left hpos (Int.natCast_nonneg k)
    rw [Int32.le_iff_toInt_le, h.segmentNumber_eq, h.nextFrame_eq]
    omega
  · intro stop hstop
    have hlt : k < w.config.segmentLimit := hroom.mp (Option.isSome_of_eq_some hstop)
    obtain ⟨hlast, hnext⟩ := toInt_of_stopFrame? hnonneg hstop
    exact ⟨hlast, by omega, h.toInt_succ_segmentNumber hsize hlt⟩
  · intro hlimit
    refine run_runSegment_of_none (Option.not_isSome_iff_eq_none.mp ?_)
    rw [hroom]
    omega

/-! ## Runs without an interruption -/

/-- Segments have come to the one for which there are no indices, directly behind the answer to a
poll if there was one. -/
structure Overflows (e : JobRun σ δ π) (polled : Nat) (t : Trace Event (JobRun σ δ π) Unit) :
    Prop where
  completes : Completes e e.config.segmentLimit t.world
  ending_eq : t.ending = .failed (overflowError t.world.segmentNumber)
  last_eq : t.events.getLast? = if polled = 0 then none else some (.polled .proceed)

/-- A segment that fails at once is the end of all. -/
theorem run_runSegments_of_failed {error : RunError}
    (h : runSegment.run w = ⟨.failed error, [], w⟩) (polls : List ControlStatus) :
    (runSegments polls).run w = ⟨.failed error, [], w⟩ := by
  cases polls with
  | nil => exact Session.run_bind_failed h
  | cons status polls => exact Session.run_bind_failed h

/-- As long as polls let the run go on and nothing interrupts it, segments follow on one another up
to the limit. -/
theorem overflows_runSegments (hsize : 1 ≤ e.config.segmentSize) (hframe : e.nextFrame = 0)
    (hnumber : e.segmentNumber = 0) {m : Nat} (h : Completes e k w)
    (hm : k + m = e.config.segmentLimit) (rest : List ControlStatus) :
    Overflows e m ((runSegments (List.replicate m .proceed ++ rest)).run w) ∨
      Interrupted ((runSegments (List.replicate m .proceed ++ rest)).run w).ending := by
  induction m generalizing k w with
  | zero =>
    have hcomputes := (countsExactly_of_completes hsize hframe hnumber h).computesExactly hsize
    obtain rfl : k = e.config.segmentLimit := hm
    rw [run_runSegments_of_failed (hcomputes.run_eq rfl)]
    exact .inl ⟨h, rfl, rfl⟩
  | succ m ih =>
    have hcounts := countsExactly_of_completes hsize hframe hnumber h
    have hfits := (hcounts.isSome_iff hsize).mpr (by omega)
    rw [hcounts.config_eq] at hfits
    obtain ⟨stop, hstop⟩ := Option.isSome_iff_exists.mp hfits
    rw [List.replicate_succ, List.cons_append]
    rcases ensures_runSegment hstop w ⟨hcounts.config_eq, rfl, rfl⟩ with ⟨⟨_, hvalue⟩, -⟩ | hbad
    · have hrun := Session.run_of_ending hvalue
      rw [run_nextSegment hrun]
      refine (ih (.segment h hrun) (by omega)).imp_left fun hmore => ?_
      refine ⟨hmore.completes, hmore.ending_eq, ?_⟩
      simp only [List.getLast?_append, List.getLast?_cons, hmore.last_eq]
      by_cases hzero : m = 0 <;> simp [hzero]
    · exact .inr hbad.bind

theorem overflows_run (hsize : 1 ≤ e.config.segmentSize) (hframe : e.nextFrame = 0)
    (hnumber : e.segmentNumber = 0) (rest : List ControlStatus) :
    let t := (run (List.replicate e.config.segmentLimit .proceed ++ rest)).run e
    Overflows e e.config.segmentLimit t ∨ Interrupted t.ending := by
  have hreport : Ensures (CountsAre e.config 0 0) (reportPhase .inProgress) _ :=
    @keeps_reportPhase σ δ π _ _ _ _ .inProgress
  rcases hreport e ⟨rfl, hframe, hnumber⟩ with ⟨⟨_, hvalue⟩, -⟩ | hbad
  · have hrun := Session.run_of_ending hvalue
    have hsegments := overflows_runSegments hsize hframe hnumber (.begun hrun) (Nat.zero_add _) rest
    simp only [run, Session.run_bind_value hrun]
    rcases hsegments with hover | hbad
    · have hlimit := (JobConfig.segmentLimit_bounds hsize).1
      have hne : e.config.segmentLimit ≠ 0 := by omega
      rw [Session.run_bind_failed (Session.run_of_ending hover.ending_eq)]
      refine .inl ⟨hover.completes, rfl, ?_⟩
      simp [hover.last_eq, hne]
    · exact .inr hbad.bind
  · exact .inr hbad.bind

theorem counts_run (hsize : 1 ≤ e.config.segmentSize) (hframe : e.nextFrame = 0)
    (hnumber : e.segmentNumber = 0) (polls : List ControlStatus) :
    let t := (run polls).run e
    t.world.segmentNumber.toInt = summaryCount (sentOf t.events) ∧
      t.world.nextFrame.toInt = (detectionsOf t.events).length * e.config.segmentSize.toInt := by
  obtain ⟨s, hsteps, hat, -⟩ := leads_run polls rfl e (standsAt_standing e .starting)
  have hpos : 0 < e.config.segmentSize := Int32.lt_of_lt_of_le (by decide) hsize
  refine ⟨?_, ?_⟩
  · rw [hat.segmentNumber]
    exact (hsteps.accounted rfl hframe hnumber hpos).segmentNumber
  · rw [hat.nextFrame]
    exact (hsteps.carved rfl hframe (Int32.le_of_lt hpos)).nextFrame

/-- The numbers of a run stay exact, however long it is, and it ends when they are used up. -/
structure StaysExact (e : JobRun σ δ π) : Prop where
  /-- The source of the job can compute the size of its pictures. -/
  pictureSize_bounds : ∀ (ℓ : Type) (m : Machine ℓ),
    3 ≤ (m.source e.config).pictureSize ∧ (m.source e.config).pictureSize ≤ 2 ^ 64 - 1
  /-- Behind any number of segments, the next one computes exactly. -/
  computesExactly : ∀ k w, Completes e k w → ComputesExactly e.config k w
  /-- At the end of any run, the counts are exact. -/
  counts_eq : ∀ polls, let t := (run polls).run e
    t.world.segmentNumber.toInt = summaryCount (sentOf t.events) ∧
      t.world.nextFrame.toInt = (detectionsOf t.events).length * e.config.segmentSize.toInt
  /-- A run that no read, no report and no poll ends has completed as many segments as there are
  indices for, and nothing has happened since the poll behind the last of them. -/
  exhausted : ∀ rest,
    let t := (run (List.replicate e.config.segmentLimit .proceed ++ rest)).run e
    ¬ Interrupted t.ending →
    Completes e e.config.segmentLimit t.world ∧
      summaryCount (sentOf t.events) = e.config.segmentLimit ∧
      (detectionsOf t.events).length = e.config.segmentLimit ∧
      t.events.getLast? = some (.polled .proceed) ∧
      t.ending = .failed (.fatal .unexpectedError
        ("Frame index overflow after segment " ++ toString (e.config.segmentLimit : Int)))

/-- With settings that are accepted, all numbers of a run from its start stay exact. -/
theorem staysExact {e : JobRun σ δ π} (hvalid : e.config.validate = .ok e.config)
    (hframe : e.nextFrame = 0) (hnumber : e.segmentNumber = 0) : StaysExact e := by
  obtain ⟨hsize, hwidth, hheight⟩ := JobConfig.sizes_of_validate hvalid
  have hcounts := counts_run hsize hframe hnumber
  refine ⟨fun ℓ m => DecoderSource.pictureSize_bounds hwidth hheight, fun k w h =>
    (countsExactly_of_completes hsize hframe hnumber h).computesExactly hsize, hcounts, ?_⟩
  intro rest t hgoes
  have hover := (overflows_run hsize hframe hnumber rest).resolve_right hgoes
  obtain ⟨hsummaries, hframes⟩ := hcounts (List.replicate e.config.segmentLimit .proceed ++ rest)
  have hlast := countsExactly_of_completes hsize hframe hnumber hover.completes
  have hlimit := (JobConfig.segmentLimit_bounds hsize).1
  have hne : e.config.segmentLimit ≠ 0 := by omega
  have hpos : e.config.segmentSize.toInt ≠ 0 := by
    have hone := JobConfig.one_le_toInt hsize
    omega
  refine ⟨hover.completes, ?_, ?_, hover.last_eq.trans (if_neg hne), ?_⟩
  · exact Int.ofNat.inj (hsummaries.symm.trans hlast.segmentNumber_eq)
  · rw [hlast.nextFrame_eq] at hframes
    exact (Int.ofNat.inj (Int.eq_of_mul_eq_mul_right hpos hframes)).symm
  · rw [hover.ending_eq, overflowError, hlast.segmentNumber_eq]

end

/-- A source whose reads all succeed gives as many frames as are asked for. -/
theorem run_awaitFrames_cued [Resolution] [Publisher π] (count : Nat)
    {e : JobRun Rehearsal.CuedSource δ π}
    (h : e.stream.source.reads = []) : ∃ frames events stream,
      (awaitFrames count).run e = ⟨.value frames, events, { e with stream := stream }⟩ := by
  induction count generalizing e with
  | zero => exact ⟨[], [], e.stream, rfl⟩
  | succ count ih =>
    have hread : (VideoSource.nextPicture e.stream.now e.stream.source).value =
        some (e.stream.source.frameAt e.stream.source.served) := by
      simp [VideoSource.nextPicture, h]
    have hplain : (onStream LiveStream.read).run e =
        ⟨.value (VideoSource.nextPicture e.stream.now e.stream.source).value,
          [.read (VideoSource.nextPicture e.stream.now e.stream.source).value],
          { e with stream := e.lost }⟩ := rfl
    rw [hread] at hplain
    have hlost : e.lost.source.reads = [] := by
      simp [lost, LiveStream.after, VideoSource.nextPicture, h]
    obtain ⟨frames, events, stream, hmore⟩ := ih (e := { e with stream := e.lost }) hlost
    have hawait : awaitFrame.run e = ⟨.value (e.stream.source.frameAt e.stream.source.served),
        [.read (some (e.stream.source.frameAt e.stream.source.served))],
        { e with stream := e.lost }⟩ := by
      rw [awaitFrame, Session.run_bind_value hplain]
      rfl
    rw [awaitFrames, Session.run_bind_value hawait, Session.run_bind_value hmore]
    exact ⟨_, _, stream, rfl⟩

/-- If the source gives all frames, the component finds nothing and the publisher takes the summary,
nothing gets in the way of a segment. -/
theorem exists_run_runSegment [Resolution]
    {e : JobRun Rehearsal.CuedSource Rehearsal.CuedDetector Rehearsal.Recorder} {stop : Int32}
    {m : Message} (hreads : e.stream.source.reads = []) (hresults : e.detector.results = [])
    (hcapacity : e.publisher.capacity = none)
    (hstop : stopFrame? e.nextFrame e.config.segmentSize = some stop)
    (hm : Wire.toMessage (⟨e.config.job, e.segmentNumber, []⟩ : SegmentSummary) = .ok m) :
    ∃ events w, runSegment.run e = ⟨.value (), events, w⟩ := by
  obtain ⟨frames, events, stream, hawait⟩ :=
    run_awaitFrames_cued e.config.segmentSize.toNatClampNeg hreads
  have hfind (job : VideoJob) : Detector.detectVideo job e.detector =
      (.ok [], { e.detector with calls := .video job :: e.detector.calls }) := by
    simp [Detector.detectVideo, hresults]
  have hpublish (queue : String) : Publisher.publish queue m e.publisher =
      (.ok (), { e.publisher with kept := (queue, m) :: e.publisher.kept }) := by
    simp [Publisher.publish, hcapacity]
  rw [runSegment, Session.run_bind_value (Session.run_world e)]
  simp only [hstop]
  rw [Session.run_bind_value hawait, Session.run_bind_value (Session.run_update _ _)]
  have hdetect (job : VideoJob) : (detect job).run
      { e with stream := stream, nextFrame := stop + 1 } = ⟨.value [], [.detected job (.ok [])],
        { e with
          stream := stream
          nextFrame := stop + 1
          detector := { e.detector with calls := .video job :: e.detector.calls } }⟩ := by
    rw [detect, Session.run_bind_value (Session.run_act _ _), hfind]
    rfl
  rw [Session.run_bind_value (hdetect _)]
  simp only [repairTracks, List.filterMap_nil, firstActivity?, List.map_nil, List.min?_nil]
  have hsend (queue : String) (d : Rehearsal.CuedDetector) :
      (send queue (⟨e.config.job, e.segmentNumber, []⟩ : SegmentSummary)).run
        { e with stream := stream, nextFrame := stop + 1, detector := d } =
        ⟨.value (), [.published queue m true],
          { e with
            stream := stream
            nextFrame := stop + 1
            detector := d
            publisher := { e.publisher with kept := (queue, m) :: e.publisher.kept } }⟩ := by
    rw [run_send hm, hpublish]
    rfl
  rw [Session.run_bind_value (hsend _ _)]
  exact ⟨_, _, rfl⟩

/-- A run whose segments are so long that there are indices for one of them only. -/
def hugeRun : JobRun Rehearsal.CuedSource Rehearsal.CuedDetector Rehearsal.Recorder :=
  { sampleRun with
    config := { sampleRun.config with segmentSize := Int32.maxValue }
    stream := ⟨{}, "rtsp://cam/1", 0⟩
    detector := {} }

/-- Nothing interrupts the huge run. -/
theorem staysExact_hugeRun :
    hugeRun.config.validate = .ok hugeRun.config ∧ StaysExact hugeRun ∧
      hugeRun.config.segmentLimit = 1 ∧
      ¬ Interrupted ((run [.proceed]).run hugeRun).ending := by
  have hvalid : hugeRun.config.validate = .ok hugeRun.config := by rfl
  have hexact : StaysExact hugeRun := staysExact hvalid rfl rfl
  have hlimit : hugeRun.config.segmentLimit = 1 := by decide +kernel
  refine ⟨hvalid, hexact, hlimit, ?_⟩
  have hreport : (reportPhase .inProgress).run hugeRun = ⟨.value (), _, _⟩ :=
    run_reportPhase .inProgress hugeRun
  have hencodes : (Archive.encode? (SegmentPayload.ofTracks 0 [])).isSome := by decide +kernel
  obtain ⟨body, hbody⟩ := Option.isSome_iff_exists.mp hencodes
  have hm : Wire.toMessage (⟨hugeRun.config.job, 0, []⟩ : SegmentSummary) =
      .ok (hugeRun.config.job.header.setBody body) := by
    simp only [Wire.toMessage, hbody]
  have hbegun := Completes.begun hreport
  have hroom := (hexact.computesExactly 0 _ hbegun).isSome_iff
  obtain ⟨stop, hstop⟩ := Option.isSome_iff_exists.mp (hroom.mpr (by omega))
  obtain ⟨events, w, hrun⟩ := exists_run_runSegment rfl rfl rfl hstop hm
  have hcompletes : Completes hugeRun 1 w := .segment hbegun hrun
  have hfails := (hexact.computesExactly 1 w hcompletes).run_eq hlimit.symm
  have hrest := run_runSegments_of_failed hfails []
  have hsegments := run_nextSegment hrun []
  rw [hrest] at hsegments
  rw [run, Session.run_bind_value hreport, Session.run_bind_failed hsegments]
  rintro ⟨⟩

end JobRun

end LiveDetection
