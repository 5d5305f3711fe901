import LiveDetection.Proofs.Motion.Segmentation

/-!
# Motion jobs that leave no trace

A job is refused when its threshold property does not spell a threshold. Neither a refused job nor
one without frames changes the frame that the motion component remembers, so whatever jobs of these
kinds are left out, the other jobs have the same answers.
-/

namespace LiveDetection.MotionDetector

variable {job : VideoJob} {raw : String}

/-- A text that spells a threshold between white space: a finite number that is not negative. -/
def SpellsThreshold (raw : String) : Prop :=
  ∃ t ∈ readSingle? (trimBlank raw), t.isFinite = true ∧ t.lt .zero = false

instance (raw : String) : Decidable (SpellsThreshold raw) :=
  inferInstanceAs (Decidable (∃ t ∈ readSingle? (trimBlank raw), _ ∧ _))

/-- The threshold property of a job, if it is set, spells a threshold. -/
def Accepted (job : VideoJob) : Prop :=
  ∀ raw ∈ job.property? thresholdProperty, SpellsThreshold raw

instance (job : VideoJob) : Decidable (Accepted job) :=
  inferInstanceAs (Decidable (∀ raw ∈ job.property? thresholdProperty, SpellsThreshold raw))

/-- The job is not refused and has frames. -/
def Counts (job : VideoJob) : Prop := Accepted job ∧ job.frames ≠ []

instance (job : VideoJob) : Decidable (Counts job) := inferInstanceAs (Decidable (_ ∧ _))

/-! ## One job -/

theorem threshold_eq_error (hraw : raw ∈ job.property? thresholdProperty)
    (h : ¬ SpellsThreshold raw) :
    threshold job = .error (.invalidProperty (thresholdProperty ++ "=" ++ raw)) := by
  rw [threshold, Option.mem_def.mp hraw]
  simp only
  split
  · rename_i t ht
    rw [if_neg]
    rintro ⟨hfinite, hnegative⟩
    exact h ⟨t, ht, hfinite, Bool.eq_false_iff.mpr hnegative⟩
  · rfl

theorem exists_threshold_eq (h : Accepted job) : ∃ limit, threshold job = .ok limit := by
  rw [threshold]
  split
  · exact ⟨defaultThreshold, rfl⟩
  · rename_i raw hraw
    obtain ⟨t, ht, hfinite, hnegative⟩ := h raw hraw
    rw [Option.mem_def.mp ht]
    simp [hfinite, hnegative]

theorem detect_of_refused (hraw : raw ∈ job.property? thresholdProperty)
    (h : ¬ SpellsThreshold raw) (d : MotionDetector) :
    detect job d = (.error (.invalidProperty (thresholdProperty ++ "=" ++ raw)), d) := by
  rw [detect, threshold_eq_error hraw h]

theorem detect_of_empty (h : Accepted job) (hframes : job.frames = []) (d : MotionDetector) :
    detect job d = (.ok [], d) := by
  obtain ⟨limit, hlimit⟩ := exists_threshold_eq h
  rw [detect, hlimit, hframes]
  rfl

/-- A job that does not count leaves the detector as it is. -/
theorem snd_detect_of_not_counts (h : ¬ Counts job) (d : MotionDetector) :
    (detect job d).2 = d := by
  by_cases haccepted : Accepted job
  · have hframes : job.frames = [] := by
      by_contra hne
      exact h ⟨haccepted, hne⟩
    rw [detect_of_empty haccepted hframes]
  · simp only [Accepted, not_forall] at haccepted
    obtain ⟨raw, hraw, hspells⟩ := haccepted
    rw [detect_of_refused hraw hspells]

/-! ## All jobs -/

theorem length_detectEach (jobs : List VideoJob) (d : MotionDetector) :
    (detectEach jobs d).1.length = jobs.length := by
  induction jobs generalizing d with
  | nil => rfl
  | cons job rest ih => simp [detectEach, ih]

/-- Each answer is that of the detector, in the state in which its job finds it. -/
theorem exists_detect_of_mem {jobs : List VideoJob} {d : MotionDetector}
    {answered : VideoJob × Except DetectionError (List Track)}
    (h : answered ∈ jobs.zip (detectEach jobs d).1) :
    ∃ found, answered.2 = (detect answered.1 found).1 := by
  induction jobs generalizing d with
  | nil => cases h
  | cons job rest ih =>
    rw [detectEach, List.zip_cons_cons] at h
    rcases List.mem_cons.mp h with rfl | h
    · exact ⟨d, rfl⟩
    · exact ih h

theorem detectEach_filter_counts (jobs : List VideoJob) (d : MotionDetector) :
    (jobs.filter Counts).zip (detectEach (jobs.filter Counts) d).1 =
        (jobs.zip (detectEach jobs d).1).filter (fun answered => Counts answered.1) ∧
      (detectEach (jobs.filter Counts) d).2 = (detectEach jobs d).2 := by
  induction jobs generalizing d with
  | nil => exact ⟨rfl, rfl⟩
  | cons job rest ih =>
    obtain ⟨hanswers, hstate⟩ := ih (detect job d).2
    by_cases hcounts : Counts job
    · rw [List.filter_cons_of_pos (by simpa using hcounts)]
      simp only [detectEach, List.zip_cons_cons]
      rw [List.filter_cons_of_pos (by simpa using hcounts), hanswers]
      exact ⟨rfl, hstate⟩
    · rw [snd_detect_of_not_counts hcounts] at hanswers hstate
      rw [List.filter_cons_of_neg (by simpa using hcounts)]
      simp only [detectEach, List.zip_cons_cons, snd_detect_of_not_counts hcounts]
      rw [List.filter_cons_of_neg (by simpa using hcounts)]
      exact ⟨hanswers, hstate⟩

/-- What some jobs leave behind, against those of them that count. -/
structure LeavesNoTrace (jobs : List VideoJob) (d : MotionDetector) : Prop where
  /-- Every job is answered. -/
  length_eq : (detectEach jobs d).1.length = jobs.length
  /-- Without the jobs that do not count, the others have the same answers, in their order. -/
  answers_eq : (jobs.filter Counts).zip (detectEach (jobs.filter Counts) d).1 =
    (jobs.zip (detectEach jobs d).1).filter fun answered => Counts answered.1
  /-- The detector ends in the same state. -/
  state_eq : (detectEach (jobs.filter Counts) d).2 = (detectEach jobs d).2
  /-- A refused job is told its property as it was set, whatever its frames are. -/
  refused : ∀ answered ∈ jobs.zip (detectEach jobs d).1,
    ∀ raw ∈ answered.1.property? thresholdProperty, ¬ SpellsThreshold raw →
      answered.2 = .error (.invalidProperty ("THRESHOLD=" ++ raw))
  /-- Nothing is found in a job without frames that is not refused. -/
  empty : ∀ answered ∈ jobs.zip (detectEach jobs d).1,
    Accepted answered.1 → answered.1.frames = [] → answered.2 = .ok []

/-- Refused jobs and jobs without frames leave no trace among any others. -/
theorem leavesNoTrace (jobs : List VideoJob) (d : MotionDetector) : LeavesNoTrace jobs d := by
  obtain ⟨hanswers, hstate⟩ := detectEach_filter_counts jobs d
  refine ⟨length_detectEach jobs d, hanswers, hstate, ?_, ?_⟩
  · intro answered hanswered raw hraw hspells
    obtain ⟨found, hfound⟩ := exists_detect_of_mem hanswered
    rw [hfound, detect_of_refused hraw hspells]
    rfl
  · intro answered hanswered haccepted hframes
    obtain ⟨found, hfound⟩ := exists_detect_of_mem hanswered
    rw [hfound, detect_of_empty haccepted hframes]

/-- There is a change against the picture that a refused job and an empty job have not put aside. -/
example :
    (detectEach
      [{ sampleJob with frames := [samplePicture 0] },
        { sampleJob with
          jobProperties := .ofList [(thresholdProperty, " -1 ")], frames := [samplePicture 50] },
        { sampleJob with frames := [] },
        { sampleJob with
          jobProperties := .ofList [(thresholdProperty, " 99.5 ")]
          frames := [samplePicture 100] }] {}).1.map (fun answer => answer.toOption.map rangesOf) =
      [some [], none, some [], some [(0, 0)]] := by
  decide +kernel

end LiveDetection.MotionDetector
