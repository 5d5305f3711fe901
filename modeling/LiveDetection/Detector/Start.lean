import LiveDetection.Detector.Basic

/-!
# Starting a component

A component is told its run directory, is made ready, and has to understand video. The
first of these that fails ends the job.
-/

namespace LiveDetection

/-- A component under the name by which errors call it. -/
structure NamedDetector (δ : Type) where
  name : String
  detector : δ

namespace NamedDetector

variable {δ : Type} [Detector δ]

/-- The failure of a component that does not get ready. -/
def initError (name : String) : RunError :=
  .fatal .componentInitError ("Detection component " ++ name ++ " failed to initialize")

/-- The failure of a component that does not understand video. -/
def unsupportedError (name : String) : RunError :=
  .fatal .componentUnsupported ("Detection component " ++ name ++ " does not support video")

/-- Tell the component its run directory and make it ready. -/
def makeReady (runDirectory : String) (c : NamedDetector δ) :
    Except RunError Unit × NamedDetector δ :=
  let ready := Detector.init (Detector.setRunDirectory runDirectory c.detector)
  (if ready.1 then .ok () else .error (initError c.name), { c with detector := ready.2 })

theorem eq_initError {runDirectory : String} {c : NamedDetector δ} {e : RunError}
    (h : (c.makeReady runDirectory).1 = .error e) : e = initError c.name := by
  simp only [makeReady] at h
  split at h
  · cases h
  · cases h
    rfl

/-- Check that the component understands video. -/
def requireVideo (c : NamedDetector δ) : Except RunError Unit :=
  if Detector.supports c.detector .video then .ok () else .error (unsupportedError c.name)

theorem eq_unsupportedError {c : NamedDetector δ} {e : RunError}
    (h : c.requireVideo = .error e) : e = unsupportedError c.name := by
  rw [requireVideo] at h
  split at h
  · cases h
  · cases h
    rfl

/-- Get the component ready for video. -/
def start (runDirectory : String) (c : NamedDetector δ) :
    Except RunError Unit × NamedDetector δ :=
  match c.makeReady runDirectory with
  | (.ok (), ready) => (ready.requireVideo, ready)
  | failed => failed

end NamedDetector

end LiveDetection
