import LiveDetection.Track.Basic

/-!
# Reports

The three kinds of report that a job publishes: its status, alerts about activity, and a
summary of every segment.
-/

namespace LiveDetection

/-- The job on whose behalf a report is made. -/
structure JobIdentity where
  name : String
  number : Int32
deriving DecidableEq, Repr, Inhabited

/-- The job entered a state. -/
structure JobStatus where
  job : JobIdentity
  status : String
deriving DecidableEq, Repr

/-- Something was found in a segment. -/
structure ActivityAlert where
  job : JobIdentity
  segmentNumber : Int32
  /-- The first frame of the activity. -/
  frameIndex : Int32
  /-- Milliseconds since the epoch. -/
  detectTime : Int64
deriving DecidableEq, Repr

/-- The tracks of one segment of the stream. -/
structure SegmentSummary where
  job : JobIdentity
  segmentNumber : Int32
  tracks : List Track
deriving DecidableEq

/-- The segment number of a summary whose content could not be read. -/
def SegmentSummary.unknownSegment : Int32 := -1

end LiveDetection
