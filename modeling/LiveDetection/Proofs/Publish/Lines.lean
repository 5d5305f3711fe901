import LiveDetection.Publish.Lines
import LiveDetection.Rehearsal.Sink
import LiveDetection.Proofs.Message.Json
import LiveDetection.Proofs.Text.Bytes

/-!
# Lines read back

No text gets a newline of its own into a line, so the bytes that a publisher writes are split
into the lines of its messages, and each line is an object with the queue and the message.
-/

namespace LiveDetection

open Json

/-- A sink that never fails from a good state on: it takes all bytes in their order, and what it
took and its being good stay as they are when it hands the bytes on. -/
structure NeverFails {ω : Type} [ByteSink ω] (good : ω → Prop) (taken : ω → List UInt8) : Prop where
  write : ∀ bytes s, good s →
    ∃ s', ByteSink.write bytes s = (.ok (), s') ∧ good s' ∧ taken s' = taken s ++ bytes
  flush : ∀ s, good s → ∃ s', ByteSink.flush s = (.ok (), s') ∧ good s' ∧ taken s' = taken s

/-- A line without its end is the text of an object with two members, one of which is read as the
queue and the other as the message. -/
def Tells (line : List UInt8) (sent : String × Message) : Prop :=
  ∃ text queue message, String.fromUTF8? ⟨line.toArray⟩ = some text ∧
    read? text = some (record [("queue", queue), ("message", message)]) ∧
    Form.ofJson? queue = some sent.1 ∧ Form.ofJson? message = some sent.2

/-- The bytes of a line, without its end. -/
def lineOf (sent : String × Message) : List UInt8 :=
  (print (lineValue sent.1 sent.2)).toUTF8.toList

theorem toUTF8_newline : "\n".toUTF8.toList = [lineEnd] := by
  rw [toList_toUTF8]
  rfl

theorem lineBytes_eq (queue : String) (message : Message) :
    lineBytes queue message = lineOf (queue, message) ++ [lineEnd] := by
  rw [lineBytes, lineText, lineOf, ← toUTF8_newline, toList_toUTF8, toList_toUTF8, toList_toUTF8,
    String.toList_append, List.flatMap_append]

theorem wellFormed_lineValue (queue : String) (message : Message) :
    (lineValue queue message).WellFormed :=
  wellFormed_pair (wellFormed_toJson queue) (wellFormed_toJson message)

/-- Whatever the texts of a message are, its line has no line end of its own. -/
theorem lineEnd_not_mem_lineOf (sent : String × Message) : lineEnd ∉ lineOf sent := by
  refine lineEnd_not_mem_toUTF8 ?_
  rw [print, String.toList_ofList]
  exact printable_writeValue (wellFormed_lineValue sent.1 sent.2)

/-- The line of a message tells the message. -/
theorem tells_lineOf (sent : String × Message) : Tells (lineOf sent) sent :=
  ⟨print (lineValue sent.1 sent.2), Form.toJson sent.1, Form.toJson sent.2,
    fromUTF8?_toList_toUTF8 _, read?_print (wellFormed_lineValue sent.1 sent.2),
    ofJson?_toJson sent.1, ofJson?_toJson sent.2⟩

namespace LineWriter

variable {ω : Type} [ByteSink ω] {good : ω → Prop} {taken : ω → List UInt8}

/-- One message adds its line to what a sink that never fails took. -/
theorem publish_of_neverFails (h : NeverFails good taken) {sink : ω} (hsink : good sink)
    (queue : String) (message : Message) :
    ∃ sink', Publisher.publish queue message (LineWriter.mk sink) = (.ok (), ⟨sink'⟩) ∧
      good sink' ∧ taken sink' = taken sink ++ (lineOf (queue, message) ++ [lineEnd]) := by
  obtain ⟨inLine, htext, hgoodText, htakenText⟩ := h.write (lineOf (queue, message)) sink hsink
  obtain ⟨written, hend, hgood, htaken⟩ := h.write [lineEnd] inLine hgoodText
  obtain ⟨flushed, hflush, hstill, hsame⟩ := h.flush written hgood
  refine ⟨flushed, ?_, hstill, by rw [hsame, htaken, htakenText, List.append_assoc]⟩
  rw [lineOf] at htext
  simp only [Publisher.publish, writeLine, htext, toUTF8_newline, hend, hflush]

/-- All messages add their lines, in their order. -/
theorem publishAll_of_neverFails (h : NeverFails good taken) {sink : ω} (hsink : good sink)
    (sent : List (String × Message)) :
    ∃ sink', publishAll sent (LineWriter.mk sink) = (.ok (), ⟨sink'⟩) ∧
      taken sink' = taken sink ++ (sent.map lineOf).flatMap (· ++ [lineEnd]) := by
  induction sent generalizing sink with
  | nil => exact ⟨sink, rfl, by simp⟩
  | cons first rest ih =>
    obtain ⟨next, hpublish, hgood, hfirst⟩ := publish_of_neverFails h hsink first.1 first.2
    obtain ⟨last, hall, hrest⟩ := ih hgood
    refine ⟨last, ?_, ?_⟩
    · rw [publishAll, hpublish]
      exact hall
    · rw [hrest, hfirst, List.map_cons, List.flatMap_cons, List.append_assoc]

/-- Messages on a sink that never fails are all published, whatever their texts, numbers and
bodies are. The bytes that the sink took for them are split at the line ends into as many lines
as there are messages, with nothing behind the last one, and each line is an object with the
queue and the message in their order. -/
theorem splitOn_publishAll (h : NeverFails good taken) {sink : ω} (hsink : good sink)
    (sent : List (String × Message)) :
    ∃ (w : LineWriter ω) (output : List UInt8) (lines : List (List UInt8)),
      publishAll sent (LineWriter.mk sink) = (.ok (), w) ∧ taken w.sink = taken sink ++ output ∧
      output = lines.flatMap (· ++ [lineEnd]) ∧ output.splitOn lineEnd = lines ++ [[]] ∧
      List.Forall₂ Tells lines sent := by
  obtain ⟨last, hall, htaken⟩ := publishAll_of_neverFails h hsink sent
  refine ⟨⟨last⟩, _, sent.map lineOf, hall, htaken, rfl, splitOn_flatMap_lineEnd ?_, ?_⟩
  · intro line hline
    obtain ⟨m, -, rfl⟩ := List.mem_map.mp hline
    exact lineEnd_not_mem_lineOf m
  · exact List.forall₂_map_left_iff.mpr (List.forall₂_same.mpr fun m _ => tells_lineOf m)

end LineWriter

/-- A sink without limits never fails. -/
theorem Rehearsal.neverFails_limitedSink :
    NeverFails (fun s : LimitedSink => s.room = none ∧ s.failingFlush = 0) LimitedSink.taken where
  write bytes s hs := by
    refine ⟨{ s with taken := s.taken ++ bytes }, ?_, hs, rfl⟩
    cases bytes with
    | nil => simp [write_device]
    | cons b rest =>
      have haccept : Device.accept (b :: rest) s =
          (.ok (rest.length + 1), { s with taken := s.taken ++ b :: rest }) := by
        simp [Device.accept, hs.1]
      rw [write_device, offerAll_of_accept (by simp) (Nat.succ_pos _) haccept, List.drop_succ_cons,
        List.drop_length, offerAll_nil]
  flush s hs :=
    ⟨{ s with flushes := s.flushes + 1 }, by simp [flush_device, Device.flush, hs.2], hs, rfl⟩

/-- Messages with control characters, quotes, escapes and newlines, a name that occurs twice,
the greatest and least numbers, no body, an empty body, and all kinds of bytes. -/
def LineWriter.sampleMessages : List (String × Message) :=
  [("a\n\"queue\"\\", ⟨[⟨"na\r\nme", .string "\x00\x1f\x7f/𝄞"⟩, ⟨"na\r\nme", .int (-1)⟩], none⟩),
    ("", ⟨[⟨"", .long Int64.minValue⟩, ⟨"\x7b", .int Int32.maxValue⟩], some []⟩),
    ("größe", ⟨[], some [0, 10, 255]⟩)]

/-- The sample messages on a sink without limits. -/
theorem LineWriter.splitOn_sampleMessages :
    ∃ (w : LineWriter Rehearsal.LimitedSink) (output : List UInt8) (lines : List (List UInt8)),
      publishAll sampleMessages (LineWriter.mk ({} : Rehearsal.LimitedSink)) = (.ok (), w) ∧
      w.sink.taken = output ∧ output = lines.flatMap (· ++ [lineEnd]) ∧
      output.splitOn lineEnd = lines ++ [[]] ∧ List.Forall₂ Tells lines sampleMessages :=
  splitOn_publishAll Rehearsal.neverFails_limitedSink ⟨rfl, rfl⟩ sampleMessages

end LiveDetection
