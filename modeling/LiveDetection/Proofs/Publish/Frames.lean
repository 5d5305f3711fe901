import LiveDetection.Publish.Frames
import LiveDetection.Proofs.Message.Envelope

/-!
# Connections read back

A reader of a connection takes four bytes, then as many as these announce, and starts again
behind them. What a publisher wrote brings it from the start of one frame to the start of the
next, so that it gets every message and ends where the bytes end.
-/

namespace LiveDetection

open Archive

namespace Envelope

/-- The length in front of an archive is read as it was written. -/
theorem lengthOf_littleEndian {width n : Nat} (h : n < 256 ^ width) :
    lengthOf (littleEndian width n) = n := by
  induction width generalizing n with
  | zero =>
    have : n = 0 := by simpa using h
    rw [this]
    rfl
  | succ width ih =>
    have hrest : n / 256 < 256 ^ width := by
      rw [Nat.pow_succ] at h
      exact Nat.div_lt_of_lt_mul (by rwa [Nat.mul_comm])
    have hstep : lengthOf (littleEndian (width + 1) n) =
        (UInt8.ofNat n).toNat + 256 * lengthOf (littleEndian width (n / 256)) := rfl
    rw [hstep, ih hrest, UInt8.toNat_ofNat']
    omega

/-- The frame around an archive. -/
def frameOf (archive : List UInt8) : List UInt8 := littleEndian 4 archive.length ++ archive

/-- A frame at the front of a connection is taken off, whatever follows it. -/
theorem ofConnection?_frameOf_append {e : Envelope} {archive : List UInt8}
    (h : encode? e = some archive) (hlength : archive.length < 2 ^ 32) (rest : List UInt8) :
    ofConnection? (frameOf archive ++ rest) = (ofConnection? rest).map (e :: ·) := by
  have hprefix : (littleEndian 4 archive.length).length = 4 := length_littleEndian _ _
  have hne : frameOf archive ++ rest ≠ [] := by
    intro hnil
    have := congrArg List.length hnil
    simp [frameOf] at this
  have hread : ofArchive? archive = some e := decode?_encode? h
  have hannounced : lengthOf (littleEndian 4 archive.length) = archive.length :=
    lengthOf_littleEndian hlength
  have htake : (frameOf archive ++ rest).take 4 = littleEndian 4 archive.length := by
    rw [frameOf, List.append_assoc, List.take_left' hprefix]
  have hdrop : (frameOf archive ++ rest).drop 4 = archive ++ rest := by
    rw [frameOf, List.append_assoc, List.drop_left' hprefix]
  have hfits : 4 ≤ (frameOf archive ++ rest).length ∧
      archive.length ≤ (archive ++ rest).length := by
    simp only [frameOf, List.length_append, hprefix]
    omega
  rw [ofConnection?, if_neg hne]
  simp only [htake, hdrop, hannounced, if_pos hfits, List.take_left,
    List.drop_left, hread]
  cases ofConnection? rest <;> rfl

end Envelope

namespace FrameWriter

/-- A message with an archive is written as one frame behind what was written before. -/
theorem publish_of_encode? {queue : String} {message : Message} {archive : List UInt8}
    (h : encode? (Envelope.mk queue message) = some archive) (w : FrameWriter) :
    Publisher.publish queue message w = (.ok (), ⟨w.written ++ Envelope.frameOf archive⟩) := by
  have hframe : Envelope.frame? ⟨queue, message⟩ = some (Envelope.frameOf archive) := by
    simp only [Envelope.frame?, h, Option.map_some, Envelope.frameOf]
  simp only [Publisher.publish, hframe]

/-- These are the archives of messages for queues, and the length of each fits its prefix. -/
def Archives (sent : List (String × Message)) (archives : List (List UInt8)) : Prop :=
  List.Forall₂ (fun e archive =>
    encode? (Envelope.mk e.1 e.2) = some archive ∧ archive.length < 2 ^ 32) sent archives

theorem publishAll_of_archives {sent : List (String × Message)} {archives : List (List UInt8)}
    (h : Archives sent archives) (w : FrameWriter) :
    publishAll sent w = (.ok (), ⟨w.written ++ archives.flatMap Envelope.frameOf⟩) := by
  induction h generalizing w with
  | nil => simp [publishAll]
  | cons hfirst _ ih =>
    simp only [publishAll, publish_of_encode? hfirst.1, ih, List.flatMap_cons, List.append_assoc]

theorem ofConnection?_of_archives {sent : List (String × Message)}
    {archives : List (List UInt8)} (h : Archives sent archives) :
    Envelope.ofConnection? (archives.flatMap Envelope.frameOf) =
      some (sent.map fun e => ⟨e.1, e.2⟩) := by
  induction h with
  | nil =>
    rw [List.flatMap_nil, Envelope.ofConnection?]
    rfl
  | cons hfirst _ ih =>
    rw [List.flatMap_cons, Envelope.ofConnection?_frameOf_append hfirst.1 hfirst.2, ih]
    rfl

/-- Messages whose archives have lengths that fit their prefixes are all published. The bytes on
the connection are the frames of the archives, one behind the other, and a reader finds in them
the same messages for the same queues in the same order, with no byte left over. -/
theorem ofConnection?_publishAll {sent : List (String × Message)} {archives : List (List UInt8)}
    (h : List.Forall₂ (fun e archive =>
      encode? (Envelope.mk e.1 e.2) = some archive ∧ archive.length < 2 ^ 32) sent archives) :
    ∃ w, publishAll sent ({} : FrameWriter) = (.ok (), w) ∧
      w.written = archives.flatMap (fun archive => littleEndian 4 archive.length ++ archive) ∧
      Envelope.ofConnection? w.written = some (sent.map fun e => ⟨e.1, e.2⟩) :=
  ⟨_, publishAll_of_archives h {}, rfl, ofConnection?_of_archives h⟩

/-- Messages with a name that occurs twice, with no body, with an empty body, and with values of
all types. -/
def sampleMessages : List (String × Message) :=
  [("status", ⟨[⟨"JOB_NAME", .string "Tür"⟩, ⟨"JOB_NAME", .int (-1)⟩, ⟨"", .long (-2)⟩], none⟩),
    ("a queue with a long name", ⟨[⟨"JOB_STATUS", .string "IN_PROGRESS"⟩], some []⟩),
    ("", ⟨[], some [0, 255, 10]⟩)]

/-- The sample messages are published and read back. -/
theorem ofConnection?_sampleMessages : ∃ archives w,
    List.Forall₂ (fun e archive =>
      encode? (Envelope.mk e.1 e.2) = some archive ∧ archive.length < 2 ^ 32)
      sampleMessages archives ∧
    publishAll sampleMessages ({} : FrameWriter) = (.ok (), w) ∧
    w.written = archives.flatMap (fun archive => littleEndian 4 archive.length ++ archive) ∧
    Envelope.ofConnection? w.written = some (sampleMessages.map fun e => ⟨e.1, e.2⟩) := by
  have harchives : List.Forall₂ (fun e archive =>
      encode? (Envelope.mk e.1 e.2) = some archive ∧ archive.length < 2 ^ 32) sampleMessages
      (sampleMessages.filterMap fun e => encode? (Envelope.mk e.1 e.2)) := by
    decide +kernel
  exact ⟨_, (ofConnection?_publishAll harchives).imp fun _ hw => ⟨harchives, hw⟩⟩

end FrameWriter

end LiveDetection
