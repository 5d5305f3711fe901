import LiveDetection.Control.Signal
import LiveDetection.Detector.Basic
import LiveDetection.Message.Basic

/-!
# Events of a run

What a run does to the world around it, and what the world answers, is a list of events in
the order in which they happen.
-/

namespace LiveDetection

/-- One call to the outside and its answer. -/
inductive Event where
  /-- The source was asked to open an address. -/
  | opened (uri : String) (ok : Bool)
  /-- The source was asked for a frame; `none` when it had none. -/
  | read (frame : Option Frame)
  /-- The source was closed. -/
  | closed
  /-- The run slept. -/
  | slept (duration : Nat)
  /-- A message was handed to the publisher. -/
  | published (queue : String) (message : Message) (accepted : Bool)
  /-- The control channel was polled. -/
  | polled (status : ControlStatus)
  /-- The component was given a segment. -/
  | detected (job : VideoJob) (result : Except DetectionError (List Track))
  /-- The component was told to finish. -/
  | finished (ok : Bool)

namespace Event

/-- How long the event made the run sleep, if it did. -/
def sleep? : Event → Option Nat
  | slept duration => some duration
  | _ => none

/-- The message that went out with the event, if one did. -/
def sent? : Event → Option (String × Message)
  | published queue message true => some (queue, message)
  | _ => none

end Event

/-- The sleeps of a list of events, in order. -/
def sleepsOf (events : List Event) : List Nat := events.filterMap Event.sleep?

/-- The messages that went out, in order. -/
def sentOf (events : List Event) : List (String × Message) := events.filterMap Event.sent?

@[simp] theorem sleepsOf_append (front back : List Event) :
    sleepsOf (front ++ back) = sleepsOf front ++ sleepsOf back :=
  List.filterMap_append

@[simp] theorem sentOf_append (front back : List Event) :
    sentOf (front ++ back) = sentOf front ++ sentOf back :=
  List.filterMap_append

@[simp] theorem sentOf_singleton (e : Event) : sentOf [e] = e.sent?.toList := by
  cases h : e.sent? <;> simp [sentOf, h]

/-! ## Places in a sequence -/

section

variable {α : Type} {front back before after : List α} {x last : α}

/-- An element of two sequences is in the first or in the second. -/
theorem append_eq_append_cons (h : front ++ back = before ++ x :: after) :
    (∃ rest, front = before ++ x :: rest ∧ after = rest ++ back) ∨
      ∃ rest, before = front ++ rest ∧ back = rest ++ x :: after := by
  rcases List.append_eq_append_iff.mp h with ⟨rest, hbefore, hback⟩ | ⟨rest, hfront, hrest⟩
  · exact .inr ⟨rest, hbefore, hback⟩
  · cases rest with
    | nil => exact .inr ⟨[], by simpa using hfront.symm, hrest.symm⟩
    | cons first rest =>
      obtain ⟨rfl, hafter⟩ := List.cons.inj hrest
      exact .inl ⟨rest, hfront, hafter⟩

/-- An element of a sequence is in front of its last one or is the last one. -/
theorem concat_eq_append_cons (h : front ++ [last] = before ++ x :: after) :
    (∃ rest, front = before ++ x :: rest ∧ after = rest ++ [last]) ∨
      before = front ∧ x = last ∧ after = [] := by
  rcases append_eq_append_cons h with hfront | ⟨rest, rfl, hback⟩
  · exact .inl hfront
  · rcases List.append_eq_singleton_iff.mp hback.symm with ⟨rfl, hlast⟩ | ⟨-, hlast⟩
    · obtain ⟨rfl, rfl⟩ := List.cons.inj hlast
      exact .inr ⟨List.append_nil _, rfl, rfl⟩
    · cases hlast

end

end LiveDetection
