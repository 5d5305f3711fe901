import LiveDetection.Capture.Stream
import LiveDetection.Proofs.Capture.Calls
import LiveDetection.Proofs.Retry.Turns
import LiveDetection.Rehearsal.Source

/-!
# Operations on a live stream

A live stream is read and reconnected in any order, and each operation may overwrite a frame of the
caller. What an operation does to the source is a plain read or none, and then attempts to
reconnect. It ends with the first read that succeeds, so there is nothing that could overwrite that
frame again, and an operation without success leaves the frame as it was.
-/

namespace LiveDetection

/-- An operation on a live stream. -/
inductive StreamCall where
  | read
  | readOrReconnect
  | reconnect
  | reconnectFor (duration : Nat)
deriving DecidableEq

/-- How often an operation reads before it reconnects. -/
def StreamCall.plainReads : StreamCall → Nat
  | read | readOrReconnect => 1
  | reconnect | reconnectFor _ => 0

/-- An operation, some time after the one before it has returned, for a frame of the caller. -/
structure Request where
  wait : Nat
  frame : Frame
  call : StreamCall

/-- What came of an operation. -/
structure Served where
  request : Request
  /-- The frame that was found, if the operation has returned with success. -/
  answer : Option Frame
  events : List Event
  /-- The frame of the caller afterwards. -/
  frame : Frame

/-- What an event makes of the frame of the caller: a read overwrites it if it succeeds. -/
def Event.overwrite (frame : Frame) : Event → Frame
  | read (some other) => other
  | _ => frame

/-- The event is an opening, with or without success. -/
def Event.isOpened : Event → Bool
  | opened _ _ => true
  | _ => false

/-- How often the source was opened, with or without success. -/
def openCount (events : List Event) : Nat := events.countP Event.isOpened

@[simp] theorem openCount_append (front back : List Event) :
    openCount (front ++ back) = openCount front + openCount back :=
  List.countP_append

namespace Ending

variable {α : Type}

/-- The answer of a session that has one. -/
def answer? : Ending (Option α) → Option α
  | value a => a
  | failed _ | waiting => none

/-- The same ending, with a value as an answer. -/
def found : Ending α → Ending (Option α)
  | value a => .value (some a)
  | failed e => .failed e
  | waiting => .waiting

@[simp] theorem answer?_found_value (a : α) : (value a).found.answer? = some a := rfl

@[simp] theorem answer?_found_waiting : (waiting : Ending α).found.answer? = none := rfl

end Ending

/-- What one attempt to reconnect did. -/
inductive Reconnection where
  /-- After a pause, the address could not be opened. -/
  | refused (pause : Nat)
  /-- After a pause, the address was opened and read. -/
  | reopened (pause : Nat) (answer : Option Frame)

namespace Reconnection

/-- The events of an attempt. -/
def events (uri : String) : Reconnection → List Event
  | refused pause => [.slept pause, .closed, .opened uri false]
  | reopened pause answer => [.slept pause, .closed, .opened uri true, .read answer]

/-- The frame that the attempt has found. -/
def answer : Reconnection → Option Frame
  | refused _ => none
  | reopened _ answer => answer

end Reconnection

namespace LiveStream

variable {σ : Type} [VideoSource σ]

variable [Resolution]

/-- Do an operation. -/
def session : StreamCall → Session Event (LiveStream σ) (Option Frame)
  | .read => read
  | .readOrReconnect => do return some (← readOrReconnect)
  | .reconnect => do return some (← reconnect)
  | .reconnectFor duration => reconnectFor duration

/-- Do operations one after the other. One that does not return is the last. -/
def serve : List Request → LiveStream σ → List Served
  | [], _ => []
  | request :: rest, s =>
    let t := (session request.call).run { s with now := s.now + request.wait }
    let frame := t.events.foldl Event.overwrite request.frame
    let served : Served := ⟨request, t.ending.answer?, t.events, frame⟩
    match t.ending with
    | .value _ => served :: serve rest t.world
    | .failed _ | .waiting => [served]

end LiveStream

/-! ## Where an operation ends -/

/-- Events among which the only read with success, if any, is the last, and gives the answer. -/
def EndsWith (answer : Option Frame) (events : List Event) : Prop :=
  ∃ quiet, (∀ frame, Event.read (some frame) ∉ quiet) ∧
    events = quiet ++ answer.toList.map fun frame => .read (some frame)

namespace EndsWith

variable {answer : Option Frame} {events front back : List Event}

theorem nil : EndsWith none [] := ⟨[], by simp, rfl⟩

theorem of_quiet (h : ∀ frame, Event.read (some frame) ∉ events) : EndsWith none events :=
  ⟨events, h, by simp⟩

theorem not_mem (h : EndsWith none events) (frame : Frame) : Event.read (some frame) ∉ events := by
  obtain ⟨quiet, hquiet, rfl⟩ := h
  simpa using hquiet frame

/-- More may follow on events without an answer. -/
theorem append (h : EndsWith none front) (h' : EndsWith answer back) :
    EndsWith answer (front ++ back) := by
  obtain ⟨quiet, hquiet, rfl⟩ := h'
  refine ⟨front ++ quiet, fun frame hmem => ?_, (List.append_assoc ..).symm⟩
  rcases List.mem_append.mp hmem with hfront | hback
  · exact h.not_mem frame hfront
  · exact hquiet frame hback

theorem read (answer : Option Frame) : EndsWith answer [.read answer] := by
  cases answer with
  | none => exact of_quiet (by simp)
  | some frame => exact ⟨[], by simp, rfl⟩

theorem reconnection (uri : String) (r : Reconnection) : EndsWith r.answer (r.events uri) := by
  cases r with
  | refused pause => exact of_quiet (by simp [Reconnection.events])
  | reopened pause answer =>
    have hfirst : EndsWith none [.slept pause, .closed, .opened uri true] := of_quiet (by simp)
    exact hfirst.append (read answer)

/-- A read with success is the last event, and it is the answer. -/
theorem of_read (h : EndsWith answer events) {before after : List Event} {frame : Frame}
    (hevents : events = before ++ .read (some frame) :: after) :
    after = [] ∧ answer = some frame := by
  obtain ⟨quiet, hquiet, rfl⟩ := h
  cases answer with
  | none =>
    rw [Option.toList_none, List.map_nil, List.append_nil] at hevents
    exact absurd (by simp [hevents]) (hquiet frame)
  | some found =>
    rcases concat_eq_append_cons hevents with ⟨rest, hrest, -⟩ | ⟨-, hread, hafter⟩
    · exact absurd (by simp [hrest]) (hquiet frame)
    · exact ⟨hafter, by simpa using hread.symm⟩

/-- There is an answer if the last call to the source is a read with success. -/
theorem answer_eq_some_iff (h : EndsWith answer events) (frame : Frame) :
    answer = some frame ↔ (callsOf events).getLast? = some (.read (some frame)) := by
  constructor
  · rintro rfl
    obtain ⟨quiet, -, rfl⟩ := h
    rw [callsOf_append]
    exact List.getLast?_concat
  · intro hlast
    have hcall : Event.read (some frame) ∈ callsOf events := List.mem_of_getLast? hlast
    obtain ⟨before, after, hevents⟩ := List.append_of_mem (List.mem_filter.mp hcall).1
    exact (h.of_read hevents).2

/-- The frame of the caller is the answer, or what it was if there is none. -/
theorem foldl_overwrite (h : EndsWith answer events) (frame : Frame) :
    events.foldl Event.overwrite frame = answer.getD frame := by
  obtain ⟨quiet, hquiet, rfl⟩ := h
  have hsame : quiet.foldl Event.overwrite frame = frame := by
    induction quiet with
    | nil => rfl
    | cons e quiet ih =>
      have hkept : e.overwrite frame = frame := by
        cases e with
        | read found =>
          cases found with
          | none => rfl
          | some other => exact absurd List.mem_cons_self (hquiet other)
        | _ => rfl
      rw [List.foldl_cons, hkept]
      exact ih fun other hmem => hquiet other (List.mem_cons_of_mem _ hmem)
  rw [List.foldl_append, hsame]
  cases answer <;> rfl

end EndsWith

/-! ## What an operation does -/

/-- Attempts to reconnect to an address, and the frame that the last of them has found. -/
structure Reconnects (uri : String) (events : List Event) (answer : Option Frame) : Prop where
  events_eq : ∃ reconnections : List Reconnection,
    events = reconnections.flatMap (Reconnection.events uri)
  endsWith : EndsWith answer events

/-- What an operation does to a source at an address, and the frame that it has found. -/
structure Performs (uri : String) (call : StreamCall) (events : List Event)
    (answer : Option Frame) : Prop where
  events_eq : ∃ (plain : List (Option Frame)) (reconnections : List Reconnection),
    events = plain.map Event.read ++ reconnections.flatMap (Reconnection.events uri) ∧
      plain.length = call.plainReads ∧ (call = .read → reconnections = [])
  endsWith : EndsWith answer events

/-- Attempts to reconnect sleep, close and open once each. -/
theorem counts_reconnections (uri : String) (reconnections : List Reconnection) :
    let events := reconnections.flatMap (Reconnection.events uri)
    (sleepsOf events).length = openCount events ∧ closeCount events = openCount events := by
  induction reconnections with
  | nil => exact ⟨rfl, rfl⟩
  | cons r rest ih =>
    have hone : (sleepsOf (r.events uri)).length = openCount (r.events uri) ∧
        closeCount (r.events uri) = openCount (r.events uri) := by
      cases r <;> exact ⟨rfl, rfl⟩
    simp only [List.flatMap_cons, sleepsOf_append, List.length_append, openCount_append,
      closeCount_append]
    exact ⟨by rw [hone.1, ih.1], by rw [hone.2, ih.2]⟩

theorem Performs.counts {uri : String} {call : StreamCall} {events : List Event}
    {answer : Option Frame} (h : Performs uri call events answer) :
    (sleepsOf events).length = openCount events ∧ closeCount events = openCount events := by
  obtain ⟨plain, reconnections, rfl, -⟩ := h.events_eq
  have hplain : sleepsOf (plain.map Event.read) = [] ∧ openCount (plain.map Event.read) = 0 ∧
      closeCount (plain.map Event.read) = 0 := by
    refine ⟨?_, ?_, ?_⟩
    · simp [sleepsOf, Event.sleep?]
    · simp [openCount, Event.isOpened]
    · simp [closeCount, Event.isClosed]
  obtain ⟨hsleeps, hopens, hcloses⟩ := hplain
  simpa [hsleeps, hopens, hcloses] using counts_reconnections uri reconnections

namespace Reconnects

variable {uri : String} {events : List Event} {answer : Option Frame}

/-- Nothing but attempts to reconnect. -/
theorem performs (h : Reconnects uri events answer) {call : StreamCall}
    (hplain : call.plainReads = 0) (hcall : call ≠ .read) : Performs uri call events answer := by
  obtain ⟨reconnections, hevents⟩ := h.events_eq
  exact ⟨⟨[], reconnections, hevents, hplain.symm, fun h => absurd h hcall⟩, h.endsWith⟩

/-- Attempts to reconnect after a read without success. -/
theorem performs_afterRead (h : Reconnects uri events answer) :
    Performs uri .readOrReconnect (.read none :: events) answer := by
  obtain ⟨reconnections, rfl⟩ := h.events_eq
  exact ⟨⟨[none], reconnections, rfl, rfl, nofun⟩, (EndsWith.read none).append h.endsWith⟩

end Reconnects

theorem performs_read (uri : String) {call : StreamCall} (hcall : call.plainReads = 1)
    (answer : Option Frame) : Performs uri call [.read answer] answer :=
  ⟨⟨[answer], [], rfl, hcall.symm, fun _ => rfl⟩, .read answer⟩

namespace LiveStream

variable {σ : Type} [VideoSource σ]

/-- A sleep and an attempt are one reconnection. -/
theorem exists_reconnection (uri : String) (now d : Nat) (source : σ) :
    ∃ r : Reconnection, .slept d :: (reopen uri now source).events = r.events uri ∧
      (reopen uri now source).result = r.answer := by
  rw [reopen]
  simp only []
  split
  · exact ⟨.reopened d _, rfl, rfl⟩
  · exact ⟨.refused d, rfl, rfl⟩

theorem reconnects_of_turns {uri : String} {now : Nat} {source : σ}
    {o : Retry.Outcome σ Frame} (h : Retry.Turns (reopen uri) now source o) :
    Reconnects uri o.events o.result := by
  induction h with
  | ended => exact ⟨⟨[], rfl⟩, .nil⟩
  | @found now d source frame hvalue =>
    obtain ⟨r, hevents, hresult⟩ := exists_reconnection uri (now + d) d source
    rw [hvalue] at hresult
    rw [hevents, hresult]
    exact ⟨⟨[r], by simp⟩, .reconnection uri r⟩
  | @failed now d source o hnone _ ih =>
    obtain ⟨rest, hrest⟩ := ih.events_eq
    obtain ⟨r, hevents, hresult⟩ := exists_reconnection uri (now + d) d source
    have hfirst := EndsWith.reconnection uri r
    rw [← hresult, hnone] at hfirst
    rw [Retry.Outcome.after, hevents]
    exact ⟨⟨r :: rest, by simp [hrest]⟩, hfirst.append ih.endsWith⟩

variable [Resolution]

theorem reconnects_reconnectFor (duration : Nat) (s : LiveStream σ) :
    Reconnects s.uri ((reconnectFor duration).run s).events
      ((reconnectFor duration).run s).ending.answer? :=
  reconnects_of_turns (Retry.turns_within (reopen s.uri) rfl s.now s.source)

theorem reconnects_reconnect (s : LiveStream σ) :
    Reconnects s.uri (reconnect.run s).events (reconnect.run s).ending.found.answer? := by
  have hreconnects := reconnects_of_turns (Retry.turns_following (reopen s.uri)
    (VideoSource.patience s.source) .endless s.now s.source)
  rw [reconnect]
  rcases hloop : Retry.following (reopen s.uri) (VideoSource.patience s.source) .endless s.now
    s.source with ⟨_ | frame, events, now, source⟩
  · simpa [hloop] using hreconnects
  · simpa [hloop] using hreconnects

theorem performs_readOrReconnect (s : LiveStream σ) :
    Performs s.uri .readOrReconnect (readOrReconnect.run s).events
      (readOrReconnect.run s).ending.found.answer? ∧ (readOrReconnect.run s).world.uri = s.uri := by
  have hplain : read.run s = ⟨.value (VideoSource.nextPicture s.now s.source).value,
    [.read (VideoSource.nextPicture s.now s.source).value], (read.run s).world⟩ := rfl
  cases hvalue : (VideoSource.nextPicture s.now s.source).value with
  | some frame =>
    rw [hvalue] at hplain
    rw [readOrReconnect, Session.run_bind_value hplain]
    exact ⟨performs_read s.uri rfl (some frame), rfl⟩
  | none =>
    rw [hvalue] at hplain
    rw [readOrReconnect, Session.run_bind_value hplain]
    exact ⟨(reconnects_reconnect (read.run s).world).performs_afterRead, rfl⟩

omit [Resolution] [VideoSource σ] in
theorem run_found (p : Session Event (LiveStream σ) Frame) (s : LiveStream σ) :
    (do return some (← p) : Session Event (LiveStream σ) (Option Frame)).run s =
      ⟨(p.run s).ending.found, (p.run s).events, (p.run s).world⟩ := by
  rcases hp : p.run s with ⟨ending, events, later⟩
  cases ending with
  | value frame =>
    rw [Session.run_bind_value hp, Session.run_pure, List.append_nil]
    rfl
  | failed e => exact Session.run_bind_failed hp
  | waiting => exact Session.run_bind_waiting hp

/-- Every operation stays with the address of its stream. -/
theorem performs_session (call : StreamCall) (s : LiveStream σ) :
    Performs s.uri call ((session call).run s).events ((session call).run s).ending.answer? ∧
      ((session call).run s).world.uri = s.uri := by
  cases call with
  | read => exact ⟨performs_read s.uri rfl _, rfl⟩
  | readOrReconnect =>
    rw [session, run_found]
    exact performs_readOrReconnect s
  | reconnect =>
    rw [session, run_found]
    exact ⟨(reconnects_reconnect s).performs rfl nofun, rfl⟩
  | reconnectFor duration => exact ⟨(reconnects_reconnectFor duration s).performs rfl nofun, rfl⟩

end LiveStream

/-! ## All operations -/

/-- An operation on a stream at an address as it has to be. -/
structure Served.Regular (uri : String) (served : Served) : Prop where
  /-- A plain read or none comes first. Each reconnection behind it sleeps once, closes the source
  and opens the address, and reads if that worked. -/
  events_eq : ∃ (plain : List (Option Frame)) (reconnections : List Reconnection),
    served.events = plain.map Event.read ++ reconnections.flatMap (Reconnection.events uri) ∧
      plain.length = served.request.call.plainReads ∧
      (served.request.call = .read → reconnections = [])
  /-- Nothing happens behind a read with success. -/
  last_of_read : ∀ before frame after,
    served.events = before ++ .read (some frame) :: after → after = []
  /-- The operation has found a frame if that was its last call to the source. -/
  answer_eq_some_iff : ∀ frame, served.answer = some frame ↔
    (callsOf served.events).getLast? = some (.read (some frame))
  /-- The caller has the frame that was found, or the one from before. -/
  frame_eq : served.frame = served.answer.getD served.request.frame
  sleeps_eq : (sleepsOf served.events).length = openCount served.events
  closes_eq : closeCount served.events = openCount served.events

theorem Performs.regular {uri : String} {request : Request} {events : List Event}
    {answer : Option Frame} (h : Performs uri request.call events answer) :
    Served.Regular uri ⟨request, answer, events, events.foldl Event.overwrite request.frame⟩ where
  events_eq := h.events_eq
  last_of_read _ _ _ hevents := (h.endsWith.of_read hevents).1
  answer_eq_some_iff := h.endsWith.answer_eq_some_iff
  frame_eq := h.endsWith.foldl_overwrite request.frame
  sleeps_eq := h.counts.1
  closes_eq := h.counts.2

/-- Whatever the source answers, and whatever operations share the stream, each of them is regular
and reconnects to the address of the stream. -/
theorem LiveStream.regular_of_mem_serve [Resolution] {σ : Type} [VideoSource σ]
    (requests : List Request)
    (s : LiveStream σ) : ∀ served ∈ s.serve requests, served.Regular s.uri := by
  induction requests generalizing s with
  | nil => simp [serve]
  | cons request rest ih =>
    obtain ⟨hperforms, huri⟩ :=
      performs_session request.call { s with now := s.now + request.wait }
    have hregular := hperforms.regular
    rw [serve]
    rcases hrun : (session request.call).run { s with now := s.now + request.wait } with
      ⟨ending, events, later⟩
    rw [hrun] at hregular huri
    cases ending with
    | value answer =>
      have hlater := ih later
      rw [huri] at hlater
      exact List.forall_mem_cons.mpr ⟨hregular, hlater⟩
    | failed e => exact List.forall_mem_singleton.mpr hregular
    | waiting => exact List.forall_mem_singleton.mpr hregular

/-- A read that needs three attempts, the first of which cannot open the address. -/
theorem regular_cuedSource :
    let s : LiveStream Rehearsal.CuedSource :=
      ⟨{ opens := [false], reads := [false, false] }, "rtsp://cam/1", 0⟩
    let request : Request := ⟨0, {}, .readOrReconnect⟩
    let frame : Frame := ⟨List.replicate 12 1, 2, 2⟩
    let served : Served := ⟨request, some frame,
      [.read none, .slept 1000, .closed, .opened s.uri false,
        .slept 2000, .closed, .opened s.uri true, .read none,
        .slept 4000, .closed, .opened s.uri true, .read (some frame)], frame⟩
    served ∈ s.serve [request, ⟨10, frame, .read⟩] ∧ served.Regular s.uri := by
  intro s request frame served
  have hmem : served ∈ s.serve [request, ⟨10, frame, .read⟩] := List.mem_cons_self
  exact ⟨hmem, LiveStream.regular_of_mem_serve _ s served hmem⟩

end LiveDetection
