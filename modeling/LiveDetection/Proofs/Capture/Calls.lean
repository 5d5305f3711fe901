import LiveDetection.Capture.Stream
import LiveDetection.Proofs.Retry.Turns
import Mathlib.Data.List.Chain

/-!
# The order of calls to a source

A source is opened, read and closed, and its calls are among the other events of a run. `Link`
is what a run knows of its source between two events: whether it is open, or where a
reconnection stands. `Link.Call` says which event is possible and where it leads; what is known
of the calls so far follows from the link that they lead to.
-/

namespace LiveDetection

namespace Event

/-- The event is a call to the source. -/
def isCall : Event → Bool
  | opened _ _ | read _ | closed => true
  | _ => false

/-- The event opens or closes the source. -/
def isSwitch : Event → Bool
  | opened _ _ | closed => true
  | _ => false

/-- The event closes the source. -/
def isClosed : Event → Bool
  | closed => true
  | _ => false

/-- The event is an opening, with or without success. -/
def IsOpening (e : Event) : Prop := ∃ uri ok, e = .opened uri ok

/-- The event is an opening without success or a read without a frame. -/
def Failed (e : Event) : Prop := e = .read none ∨ ∃ uri, e = .opened uri false

/-- The event has nothing to do with the source: it is no call, and no sleep before one. -/
structure Apart (e : Event) : Prop where
  isCall_eq : e.isCall = false
  sleep?_eq : e.sleep? = none

end Event

/-- The calls to the source, in order. -/
def callsOf (events : List Event) : List Event := events.filter Event.isCall

/-- How often the source was closed. -/
def closeCount (events : List Event) : Nat := events.countP Event.isClosed

/-- Of the calls that open or close the source, the last is an opening with success. -/
def LeftOpen (calls : List Event) : Prop :=
  ∃ uri, (calls.filter Event.isSwitch).getLast? = some (.opened uri true)

@[simp] theorem callsOf_append (front back : List Event) :
    callsOf (front ++ back) = callsOf front ++ callsOf back :=
  List.filter_append _ _

@[simp] theorem closeCount_append (front back : List Event) :
    closeCount (front ++ back) = closeCount front + closeCount back :=
  List.countP_append

/-- The calls from the first opening of a source to its last close. -/
structure CallsInOrder (calls : List Event) : Prop where
  /-- A source is read only when it is open. -/
  leftOpen_of_read : ∀ before frame after, calls = before ++ .read frame :: after → LeftOpen before
  /-- A call that fails is followed by a close. -/
  closed_after_failed : ∀ before call after, calls = before ++ call :: after → call.Failed →
    after.head? = some .closed
  /-- An opening is the first call, or it follows a close. -/
  closed_before_opening : ∀ before call after, calls = before ++ call :: after →
    call.IsOpening → before = [] ∨ before.getLast? = some .closed
  /-- A close is the last call, or it is followed by an opening. -/
  opening_after_closed : ∀ before after, calls = before ++ .closed :: after →
    after = [] ∨ ∃ next ∈ after.head?, next.IsOpening

/-- What may follow on a call at once. -/
structure NextCall (call next : Event) : Prop where
  closed_of_failed : call.Failed → next = .closed
  opening_of_closed : call = .closed → next.IsOpening
  closed_of_opening : next.IsOpening → call = .closed

/-- Calls of which each may follow on the one before it. -/
structure Linked (calls : List Event) : Prop where
  neighbours : calls.IsChain NextCall
  leftOpen_of_read : ∀ before frame after, calls = before ++ .read frame :: after → LeftOpen before

namespace Linked

variable {calls : List Event} {call : Event}

theorem nil : Linked [] where
  neighbours := .nil
  leftOpen_of_read := by simp

/-- One more call, which may follow on the last one and is a read only if the source is open. -/
theorem concat (h : Linked calls) (hnext : ∀ last ∈ calls.getLast?, NextCall last call)
    (hopen : ∀ frame, call = .read frame → LeftOpen calls) : Linked (calls ++ [call]) where
  neighbours := by
    refine List.isChain_append.mpr ⟨h.neighbours, List.isChain_singleton _, ?_⟩
    intro last hlast other hother
    obtain rfl : call = other := by simpa using hother
    exact hnext last hlast
  leftOpen_of_read := by
    intro before frame after hcalls
    rcases concat_eq_append_cons hcalls with ⟨rest, hrest, -⟩ | ⟨rfl, hread, -⟩
    · exact h.leftOpen_of_read before frame rest hrest
    · exact hopen frame hread.symm

/-- A close goes behind any other call. -/
theorem closed (h : Linked calls) (hlast : ∀ last ∈ calls.getLast?, last ≠ .closed) :
    Linked (calls ++ [.closed]) := by
  refine h.concat (fun last hmem => ⟨fun _ => rfl, fun hclosed => ?_, ?_⟩) nofun
  · exact absurd hclosed (hlast last hmem)
  · rintro ⟨_, _, ⟨⟩⟩

/-- With a close at the end, the calls are complete. -/
theorem callsInOrder (h : Linked calls) (hlast : calls.getLast? = some .closed) :
    CallsInOrder calls := by
  have hpair : ∀ {before call next after}, calls = before ++ call :: next :: after →
      NextCall call next := fun hcalls =>
    List.isChain_iff_forall_rel_of_append_cons_cons.mp h.neighbours hcalls
  refine ⟨h.leftOpen_of_read, ?_, ?_, ?_⟩
  · rintro before call (_ | ⟨next, after⟩) hcalls hfailed
    · obtain rfl : call = .closed := by simpa [hcalls] using hlast
      simp [Event.Failed] at hfailed
    · exact congrArg some ((hpair hcalls).closed_of_failed hfailed)
  · intro before call after hcalls hopening
    rcases List.eq_nil_or_concat' before with rfl | ⟨front, last, rfl⟩
    · exact .inl rfl
    · rw [List.append_assoc] at hcalls
      rw [(hpair hcalls).closed_of_opening hopening]
      exact .inr List.getLast?_concat
  · rintro before (_ | ⟨next, after⟩) hcalls
    · exact .inl rfl
    · exact .inr ⟨next, rfl, (hpair hcalls).opening_of_closed rfl⟩

end Linked

/-! ## One call -/

/-- What is known of a source between two events. -/
inductive Link where
  /-- It is open, and no call to it has failed since. -/
  | up
  /-- The last call failed. -/
  | down
  /-- The run has slept before it reconnects. -/
  | rested
  /-- It is closed. -/
  | shut

namespace Link

/-- No reconnection is under way. -/
def Idle : Link → Prop
  | up | down => True
  | rested | shut => False

theorem idle_up : up.Idle := trivial

theorem idle_down : down.Idle := trivial

/-- Where the answer to a read leads. -/
def afterRead : Option Frame → Link
  | some _ => up
  | none => down

/-- Where the answer to an opening leads. -/
def afterOpening : Bool → Link
  | true => up
  | false => down

/-- Which event is possible, and where it leads. -/
inductive Call : Link → Event → Link → Prop
  | read (answer : Option Frame) : Call up (.read answer) (afterRead answer)
  | slept (duration : Nat) : Call down (.slept duration) rested
  | closed : Call rested .closed shut
  | opened (uri : String) (ok : Bool) : Call shut (.opened uri ok) (afterOpening ok)
  | apart {link : Link} {e : Event} (h : e.Apart) : Call link e link

/-- Events that lead from one link to another. -/
inductive Calls (link : Link) : List Event → Link → Prop
  | refl : Calls link [] link
  | step {events : List Event} {mid last : Link} {e : Event} (h : Calls link events mid)
      (he : Call mid e last) : Calls link (events ++ [e]) last

namespace Calls

variable {link mid last : Link} {front back : List Event}

theorem single {e : Event} (h : Call link e last) : Calls link [e] last := .step .refl h

theorem trans (h : Calls link front mid) (h' : Calls mid back last) :
    Calls link (front ++ back) last := by
  induction h' with
  | refl => simpa using h
  | step _ he ih =>
    rw [← List.append_assoc]
    exact ih.step he

theorem cons {e : Event} (h : Call link e mid) (h' : Calls mid back last) :
    Calls link (e :: back) last :=
  (single h).trans h'

end Calls

/-! ## All calls -/

/-- What a link says of the calls so far. -/
def Shows (calls : List Event) : Link → Prop
  | up => LeftOpen calls ∧ ∀ last ∈ calls.getLast?, ¬ last.Failed ∧ last ≠ .closed
  | down | rested => ∀ last ∈ calls.getLast?, last ≠ .closed
  | shut => ∀ last ∈ calls.getLast?, last = .closed

/-- How many sleeps have no close yet. -/
def sleepsAhead : Link → Nat
  | rested => 1
  | _ => 0

/-- The calls so far may follow on one another, and the link is what they lead to. -/
structure Tells (link : Link) (events : List Event) : Prop where
  linked : Linked (callsOf events)
  shows : link.Shows (callsOf events)
  sleeps : (sleepsOf events).length = closeCount events + link.sleepsAhead

theorem tells_shut : shut.Tells [] where
  linked := .nil
  shows := by simp [Shows, callsOf]
  sleeps := rfl

theorem leftOpen_concat_read {calls : List Event} {answer : Option Frame} :
    LeftOpen (calls ++ [.read answer]) ↔ LeftOpen calls := by
  simp [LeftOpen, Event.isSwitch]

theorem leftOpen_concat_opened (calls : List Event) (uri : String) :
    LeftOpen (calls ++ [.opened uri true]) := by
  simp [LeftOpen, Event.isSwitch]

namespace Tells

variable {link next : Link} {events : List Event} {e : Event}

/-- One more call. -/
theorem call (h : link.Tells events) (hcall : e.isCall = true)
    (hlinked : Linked (callsOf events ++ [e])) (hshows : next.Shows (callsOf events ++ [e]))
    (hsleeps : link.sleepsAhead = closeCount [e] + next.sleepsAhead) :
    next.Tells (events ++ [e]) := by
  have hcalls : callsOf (events ++ [e]) = callsOf events ++ [e] := by simp [callsOf, hcall]
  have hsleep : sleepsOf [e] = [] := by
    cases e with
    | opened | read | closed => rfl
    | _ => cases hcall
  refine ⟨hcalls ▸ hlinked, hcalls ▸ hshows, ?_⟩
  rw [sleepsOf_append, hsleep, List.append_nil, closeCount_append, h.sleeps, hsleeps,
    Nat.add_assoc]

/-- An event that is no call. -/
theorem quiet (h : link.Tells events) (hcall : e.isCall = false)
    (hshows : next.Shows (callsOf events))
    (hsleeps : link.sleepsAhead + (sleepsOf [e]).length = next.sleepsAhead) :
    next.Tells (events ++ [e]) := by
  have hcalls : callsOf (events ++ [e]) = callsOf events := by simp [callsOf, hcall]
  have hclosed : closeCount [e] = 0 := by
    cases e with
    | opened | read | closed => cases hcall
    | _ => rfl
  refine ⟨hcalls ▸ h.linked, hcalls ▸ hshows, ?_⟩
  rw [sleepsOf_append, List.length_append, closeCount_append, hclosed, h.sleeps, ← hsleeps,
    Nat.add_zero, Nat.add_assoc]

theorem read (h : up.Tells events) (answer : Option Frame) :
    (afterRead answer).Tells (events ++ [.read answer]) := by
  obtain ⟨hopen, hlast⟩ := h.shows
  have hlinked : Linked (callsOf events ++ [.read answer]) := by
    refine h.linked.concat (fun last hmem => ⟨fun hfailed => ?_, fun hclosed => ?_, ?_⟩)
      fun _ _ => hopen
    · exact absurd hfailed (hlast last hmem).1
    · exact absurd hclosed (hlast last hmem).2
    · rintro ⟨_, _, ⟨⟩⟩
  cases answer with
  | some frame =>
    refine h.call rfl hlinked ⟨leftOpen_concat_read.mpr hopen, fun last hmem => ?_⟩ rfl
    obtain rfl : .read (some frame) = last := by simpa using hmem
    simp [Event.Failed]
  | none => exact h.call rfl hlinked (by simp [afterRead, Shows]) rfl

theorem slept (h : down.Tells events) (duration : Nat) :
    rested.Tells (events ++ [.slept duration]) :=
  h.quiet rfl h.shows rfl

theorem closed (h : rested.Tells events) : shut.Tells (events ++ [.closed]) :=
  h.call rfl (h.linked.closed h.shows) (by simp [Shows]) rfl

theorem opened (h : shut.Tells events) (uri : String) (ok : Bool) :
    (afterOpening ok).Tells (events ++ [.opened uri ok]) := by
  have hlinked : Linked (callsOf events ++ [.opened uri ok]) := by
    refine h.linked.concat (fun last hmem => ?_) nofun
    obtain rfl : last = .closed := h.shows last hmem
    refine ⟨?_, fun _ => ⟨uri, ok, rfl⟩, fun _ => rfl⟩
    rintro (⟨⟨⟩⟩ | ⟨_, ⟨⟩⟩)
  cases ok with
  | true =>
    refine h.call rfl hlinked ⟨leftOpen_concat_opened _ uri, fun last hmem => ?_⟩ rfl
    obtain rfl : .opened uri true = last := by simpa using hmem
    simp [Event.Failed]
  | false => exact h.call rfl hlinked (by simp [afterOpening, Shows]) rfl

theorem apart (h : link.Tells events) (he : e.Apart) : link.Tells (events ++ [e]) :=
  h.quiet he.isCall_eq h.shows (by simp [sleepsOf, he.sleep?_eq])

theorem step (h : link.Tells events) (he : Call link e next) : next.Tells (events ++ [e]) := by
  cases he with
  | read answer => exact h.read answer
  | slept duration => exact h.slept duration
  | closed => exact h.closed
  | opened uri ok => exact h.opened uri ok
  | apart he => exact h.apart he

end Tells

/-- Whatever happens between the first opening and a link is told by that link. -/
theorem Calls.tells {last : Link} {events : List Event} (h : Calls shut events last) :
    last.Tells events := by
  induction h with
  | refl => exact tells_shut
  | step _ he ih => exact ih.step he

/-- When no reconnection is under way, the source can be closed for good. -/
theorem Tells.callsInOrder {link : Link} {events : List Event} (h : link.Tells events)
    (hidle : link.Idle) : CallsInOrder (callsOf (events ++ [.closed])) := by
  have hlast : ∀ last ∈ (callsOf events).getLast?, last ≠ .closed := by
    cases link with
    | up => exact fun last hmem => (h.shows.2 last hmem).2
    | down => exact h.shows
    | rested | shut => cases hidle
  rw [callsOf_append]
  exact (h.linked.closed hlast).callsInOrder List.getLast?_concat

theorem Tells.sleeps_eq {link : Link} {events : List Event} (h : link.Tells events)
    (hidle : link.Idle) : (sleepsOf events).length = closeCount events := by
  cases link with
  | up | down => exact h.sleeps
  | rested | shut => cases hidle

end Link

/-! ## Reconnecting -/

namespace LiveStream

variable {σ : Type} [VideoSource σ]

open Link

/-- An attempt closes the source, opens it, and reads from it only if that worked. -/
theorem calls_reopen (uri : String) (now : Nat) (source : σ) :
    Calls rested (reopen uri now source).events (afterRead (reopen uri now source).result) := by
  rw [reopen]
  simp only []
  split
  · exact .cons .closed (.cons (.opened uri true) (.single (.read _)))
  · exact .cons .closed (.single (.opened uri false))

theorem calls_attempt (uri : String) (now d : Nat) (source : σ) :
    Calls down (.slept d :: (reopen uri (now + d) source).events)
      (afterRead (reopen uri (now + d) source).result) :=
  .cons (.slept d) (calls_reopen uri (now + d) source)

theorem calls_of_turns {uri : String} {now : Nat} {source : σ} {o : Retry.Outcome σ Frame}
    (h : Retry.Turns (reopen uri) now source o) : Calls down o.events (afterRead o.result) := by
  induction h with
  | ended => exact .refl
  | @found now d source frame hvalue =>
    have hattempt := calls_attempt uri now d source
    rw [hvalue] at hattempt
    exact hattempt
  | @failed now d source o hnone _ ih =>
    have hattempt := calls_attempt uri now d source
    rw [hnone] at hattempt
    exact hattempt.trans ih

end LiveStream

end LiveDetection
