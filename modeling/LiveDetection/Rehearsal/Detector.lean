import LiveDetection.Detector.Basic

/-!
# Stand-in components

Components that answer in a fixed way: one from a script, with a log of its calls, one that
implements nothing, and one that answers everything but video from the request itself.
-/

namespace LiveDetection.Rehearsal

/-- A call that a scripted component has seen. -/
inductive DetectorCall where
  | setRunDirectory (dir : String)
  | init
  | close
  | video (job : VideoJob)

/-- A component that answers requests about video from a list. -/
structure CuedDetector where
  initOk : Bool := true
  closeOk : Bool := true
  supported : List MediaKind := [.video]
  /-- The answers to come; afterwards nothing is found. -/
  results : List (Except DetectionError (List Track)) := []
  /-- The calls so far, latest first. -/
  calls : List DetectorCall := []

instance : Detector CuedDetector where
  setRunDirectory dir d := { d with calls := .setRunDirectory dir :: d.calls }
  init d := (d.initOk, { d with calls := .init :: d.calls })
  close d := (d.closeOk, { d with calls := .close :: d.calls })
  detectionType _ := "SCRIPTED"
  supports d kind := d.supported.contains kind
  detectVideo job d :=
    (d.results.headD (.ok []), { d with results := d.results.tail, calls := .video job :: d.calls })

/-- A component that never gets ready and understands nothing. -/
structure MinimalDetector where

instance : Detector MinimalDetector where
  setRunDirectory _ d := d
  init d := (false, d)
  close d := (true, d)
  detectionType _ := "MINIMAL"
  supports _ _ := false

/-- A component that answers from the request itself. -/
structure EchoDetector where

instance : Detector EchoDetector where
  setRunDirectory _ d := d
  init d := (true, d)
  close d := (false, d)
  detectionType _ := "ECHO"
  supports _ kind := kind ≠ .video
  detectImage job d :=
    (.ok [{ x := 0, y := 0, width := 1, height := 1, confidence := .one
            properties := OrderedMap.empty.insert job.jobName job.dataUri }], d)
  detectAudio job d :=
    (.ok [{ startTime := job.startTime, stopTime := job.stopTime
            confidence := .ofQuotient false 1 2, properties := job.jobProperties }], d)
  detectGeneric job d :=
    (.ok [{ confidence := .ofQuotient false 1 4, properties := job.mediaProperties }], d)

end LiveDetection.Rehearsal
