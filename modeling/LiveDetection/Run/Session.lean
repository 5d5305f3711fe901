import LiveDetection.Failure

/-!
# Sessions

A session is a computation against a world: it leaves a list of events, of a kind that
depends on what it is about, changes the world and ends with a value, with an error, or
waiting for something that did not come while it was followed. Sequencing appends the
events, and whatever is not a value ends the whole sequence.
-/

namespace LiveDetection

/-- How a session ends. -/
inductive Ending (α : Type) where
  | value (a : α)
  | failed (error : RunError)
  | waiting

/-- What a session leaves behind. -/
structure Trace (ε ω α : Type) where
  ending : Ending α
  events : List ε
  world : ω

/-- A computation against a world `ω`. -/
structure Session (ε ω α : Type) where
  run : ω → Trace ε ω α

namespace Session

variable {ε ω α β : Type}

@[ext] theorem ext {p q : Session ε ω α} (h : p.run = q.run) : p = q := by
  cases p; cases q
  cases h
  rfl

/-- A value without events. -/
def pure (a : α) : Session ε ω α := ⟨fun w => ⟨.value a, [], w⟩⟩

/-- First one session, then, with its value, the next. -/
def bind (p : Session ε ω α) (f : α → Session ε ω β) : Session ε ω β :=
  ⟨fun w =>
    let first := p.run w
    match first.ending with
    | .value a =>
      let second := (f a).run first.world
      { second with events := first.events ++ second.events }
    | .failed e => ⟨.failed e, first.events, first.world⟩
    | .waiting => ⟨.waiting, first.events, first.world⟩⟩

instance : Monad (Session ε ω) where
  pure := pure
  bind := bind

/-- End with an error. -/
def fail (e : RunError) : Session ε ω α := ⟨fun w => ⟨.failed e, [], w⟩⟩

/-- The world as it is. -/
def world : Session ε ω ω := ⟨fun w => ⟨.value w, [], w⟩⟩

/-- Change the world, with the events of the change, and answer. -/
def act (step : ω → α × List ε × ω) : Session ε ω α :=
  ⟨fun w => let s := step w; ⟨.value s.1, s.2.1, s.2.2⟩⟩

/-- Change the world without an event. -/
def update (change : ω → ω) : Session ε ω Unit := ⟨fun w => ⟨.value (), [], change w⟩⟩

/-- Wait for what does not come. -/
def wait : Session ε ω α := ⟨fun w => ⟨.waiting, [], w⟩⟩

@[simp] theorem run_pure (a : α) (w : ω) :
    (Pure.pure a : Session ε ω α).run w = ⟨.value a, [], w⟩ := rfl

@[simp] theorem run_fail (e : RunError) (w : ω) :
    (fail e : Session ε ω α).run w = ⟨.failed e, [], w⟩ := rfl

@[simp] theorem run_world (w : ω) : (world : Session ε ω ω).run w = ⟨.value w, [], w⟩ := rfl

@[simp] theorem run_act (step : ω → α × List ε × ω) (w : ω) :
    (act step).run w = ⟨.value (step w).1, (step w).2.1, (step w).2.2⟩ := rfl

@[simp] theorem run_update (change : ω → ω) (w : ω) :
    (update change : Session ε ω Unit).run w = ⟨.value (), [], change w⟩ := rfl

@[simp] theorem run_wait (w : ω) : (wait : Session ε ω α).run w = ⟨.waiting, [], w⟩ := rfl

/-- What a session has left, by its ending. -/
theorem run_of_ending {p : Session ε ω α} {w : ω} {ending : Ending α}
    (h : (p.run w).ending = ending) : p.run w = ⟨ending, (p.run w).events, (p.run w).world⟩ := by
  rw [← h]

/-- A session that yields a value goes on with its continuation. -/
theorem run_bind_value {p : Session ε ω α} {f : α → Session ε ω β} {w w' : ω} {a : α}
    {events : List ε} (h : p.run w = ⟨.value a, events, w'⟩) :
    (p >>= f).run w =
      { (f a).run w' with events := events ++ ((f a).run w').events } := by
  change (Session.bind p f).run w = _
  simp [Session.bind, h]

/-- A session that fails ends the sequence. -/
theorem run_bind_failed {p : Session ε ω α} {f : α → Session ε ω β} {w w' : ω} {e : RunError}
    {events : List ε} (h : p.run w = ⟨.failed e, events, w'⟩) :
    (p >>= f).run w = ⟨.failed e, events, w'⟩ := by
  change (Session.bind p f).run w = _
  simp [Session.bind, h]

/-- A session that waits ends the sequence. -/
theorem run_bind_waiting {p : Session ε ω α} {f : α → Session ε ω β} {w w' : ω}
    {events : List ε} (h : p.run w = ⟨.waiting, events, w'⟩) :
    (p >>= f).run w = ⟨.waiting, events, w'⟩ := by
  change (Session.bind p f).run w = _
  simp [Session.bind, h]

theorem bind_assoc {γ : Type} (p : Session ε ω α) (f : α → Session ε ω β)
    (g : β → Session ε ω γ) : p >>= f >>= g = p >>= fun a => f a >>= g := by
  ext w : 2
  rcases hp : p.run w with ⟨ending, events, later⟩
  cases ending with
  | value a =>
    rw [run_bind_value hp]
    rcases hf : (f a).run later with ⟨ending, more, last⟩
    have hpf : (p >>= f).run w = ⟨ending, events ++ more, last⟩ := by rw [run_bind_value hp, hf]
    cases ending with
    | value b => rw [run_bind_value hpf, run_bind_value hf, List.append_assoc]
    | failed e => rw [run_bind_failed hpf, run_bind_failed hf]
    | waiting => rw [run_bind_waiting hpf, run_bind_waiting hf]
  | failed e => rw [run_bind_failed hp, run_bind_failed (run_bind_failed hp)]
  | waiting => rw [run_bind_waiting hp, run_bind_waiting (run_bind_waiting hp)]

/-- Run a session on a part of a larger world. -/
def onPart {ω' : Type} (get : ω' → ω) (put : ω → ω' → ω') (p : Session ε ω α) : Session ε ω' α :=
  ⟨fun w => let t := p.run (get w); ⟨t.ending, t.events, put t.world w⟩⟩

@[simp] theorem run_onPart {ω' : Type} (get : ω' → ω) (put : ω → ω' → ω') (p : Session ε ω α)
    (w : ω') :
    (p.onPart get put).run w =
      ⟨(p.run (get w)).ending, (p.run (get w)).events, put (p.run (get w)).world w⟩ := rfl

end Session

end LiveDetection
