import LiveDetection.Detector.Json
import LiveDetection.Job.Json
import LiveDetection.Main
import LiveDetection.Proofs.Run.Order
import LiveDetection.Proofs.Run.Summaries
import LiveDetection.Rehearsal.Detector
import LiveDetection.Rehearsal.Player
import LiveDetection.Rehearsal.Publisher
import LiveDetection.Rehearsal.Sink
import LiveDetection.Rehearsal.Source
import LiveDetection.Report.Json
import LiveDetection.Retry.Script
import LiveDetection.Proofs.Message.Envelope
import LiveDetection.Proofs.Publish.Frames
import LiveDetection.Proofs.Control.Lines
import LiveDetection.Proofs.Json.Number
import LiveDetection.Proofs.Json.Text
import LiveDetection.Proofs.Json.RoundTrip
import LiveDetection.Proofs.Json.Form
import LiveDetection.Proofs.Message.Json
import LiveDetection.Proofs.Publish.Lines
import LiveDetection.Proofs.Control.Exchange
import LiveDetection.Proofs.Motion.Segmentation
import LiveDetection.Proofs.Capture.Calls
import LiveDetection.Proofs.Run.Parts
import LiveDetection.Proofs.Run.Calls
import LiveDetection.Proofs.Run.Stalls
import LiveDetection.Proofs.Run.Failures
import LiveDetection.Proofs.Track.Repaired
import LiveDetection.Proofs.Retry.Agreement
import LiveDetection.Proofs.Launch.Points
import LiveDetection.Proofs.Run.Endings
import LiveDetection.Proofs.Launch.Verdict
import LiveDetection.Proofs.Motion.Skipped
import LiveDetection.Proofs.Motion.Runs
import LiveDetection.Proofs.Run.Waiting
import LiveDetection.Proofs.Run.Outages
import LiveDetection.Proofs.Retry.Handover
import LiveDetection.Proofs.Run.Recovery
import LiveDetection.Proofs.Publish.Room
import LiveDetection.Proofs.Message.Lookup
import LiveDetection.Proofs.Message.Assignments
import LiveDetection.Proofs.Message.Reordered
import LiveDetection.Proofs.Message.Unreadable
import LiveDetection.Proofs.Capture.Feed
import LiveDetection.Proofs.Capture.Playback
import LiveDetection.Proofs.Capture.Operations
import LiveDetection.Proofs.Files.Content
import LiveDetection.Proofs.Publish.Appending
import LiveDetection.Proofs.Run.Exhaustion
import LiveDetection.Proofs.Json.Map
import LiveDetection.Proofs.Report.Json
import LiveDetection.Proofs.Track.Json
import LiveDetection.Proofs.Job.Json
import LiveDetection.Proofs.Number.Rounding
import LiveDetection.Proofs.Number.Single
import LiveDetection.Proofs.Number.Shortest
import LiveDetection.Proofs.Number.Separation
import LiveDetection.Proofs.Number.Double
import LiveDetection.Proofs.Number.Ends
import LiveDetection.Proofs.Json.Scaling
import LiveDetection.Proofs.Json.Single
import LiveDetection.Proofs.Json.Finite
