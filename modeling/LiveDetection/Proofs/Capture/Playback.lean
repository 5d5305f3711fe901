import LiveDetection.Capture.Decoder
import LiveDetection.Proofs.Capture.Feed
import LiveDetection.Rehearsal.Player

/-!
# Pictures in their order

A source behind a decoder program is opened, read and closed in any order. What it has yet to give
is a list of blocks: the picture that opening has kept, then what the decoder delivers. `Plays` says
what one call answers and what it leaves of that list. So the reads behind an opening give the
blocks in the output of its decoder and no others, each of them once.
-/

namespace LiveDetection

/-- A call to a source. A read is given the frame that the caller has. -/
inductive SourceCall where
  | opening (uri : String)
  | reading (frame : Frame)
  | closing
deriving DecidableEq

/-- A call to a source, with what came of it. -/
inductive Played where
  /-- An address was opened. The output is what the decoder for it writes, if there is one. -/
  | opened (output : Option (List UInt8)) (ok : Bool)
  /-- A read found one frame with the caller and left another one there. -/
  | read (before : Frame) (ok : Bool) (after : Frame)
  | closed
deriving DecidableEq

namespace Played

/-- The call is a read. -/
def IsRead : Played → Prop
  | read _ _ _ => True
  | opened _ _ | closed => False

/-- The call leaves the source without a decoder. -/
def Darkens : Played → Prop
  | opened _ ok => ok = false
  | closed => True
  | read _ _ _ => False

/-- A read that gets a block as a picture of a size, or that fails and leaves the frame alone. -/
def readOf (width height : Int32) (before : Frame) : Option (List UInt8) → Played
  | some block => read before true ⟨block, width, height⟩
  | none => read before false before

end Played

/-- The next block of a feed, if there is one, arrives before a time is over. -/
def Feed.InTime (feed : Feed) (limit : Nat) : Prop :=
  ∀ block ∈ feed.blocks.head?, block.arrival ≤ limit

instance (feed : Feed) (limit : Nat) : Decidable (feed.InTime limit) :=
  inferInstanceAs (Decidable (∀ block ∈ feed.blocks.head?, block.arrival ≤ limit))

namespace DecoderSource

variable {ℓ : Type} [Launcher ℓ]

/-- What the decoder for an address writes, if it can be started. -/
def bursts? (uri : String) (s : DecoderSource ℓ) : Option (List Burst) :=
  (Launcher.launch s.program (decoderArguments uri s.width s.height) s.system).1

/-- Make a call. -/
def perform (call : SourceCall) (now : Nat) (s : DecoderSource ℓ) :
    Reply (DecoderSource ℓ) Played :=
  match call with
  | .opening uri =>
    let reply := VideoSource.openAt uri now s
    ⟨.opened ((s.bursts? uri).map outputOf) reply.value, reply.cost, reply.source⟩
  | .reading frame =>
    let reply := VideoSource.nextPicture now s
    ⟨.read frame reply.value.isSome (reply.value.getD frame), reply.cost, reply.source⟩
  | .closing =>
    let reply := VideoSource.close now s
    ⟨.closed, reply.cost, reply.source⟩

/-- Make calls, each some time after the one before it has returned. -/
def play : List (Nat × SourceCall) → Nat → DecoderSource ℓ → List Played
  | [], _, _ => []
  | (wait, call) :: rest, now, s =>
    let reply := s.perform call (now + wait)
    reply.value :: play rest (now + wait + reply.cost) reply.source

/-- A call does not wait in vain for a block that is still to come: if there is a next one, it
arrives before the time limit of the source is over. -/
def InTime (call : SourceCall) (now : Nat) (s : DecoderSource ℓ) : Prop :=
  match call with
  | .opening uri => ∀ bursts ∈ s.bursts? uri,
    (Feed.ofBursts (s.pictureSize - 1) now [] bursts).InTime (now + s.timeout)
  | .reading _ => s.pending = none → ∀ feed ∈ s.feed, feed.InTime (now + s.timeout)
  | .closing => True

/-- No call waits in vain. -/
def Timely : List (Nat × SourceCall) → Nat → DecoderSource ℓ → Prop
  | [], _, _ => True
  | (wait, call) :: rest, now, s =>
    let reply := s.perform call (now + wait)
    s.InTime call (now + wait) ∧ Timely rest (now + wait + reply.cost) reply.source

instance decidableInTime : (call : SourceCall) → (now : Nat) → (s : DecoderSource ℓ) →
    Decidable (s.InTime call now)
  | .opening uri, now, s => inferInstanceAs (Decidable (∀ bursts ∈ s.bursts? uri,
    (Feed.ofBursts (s.pictureSize - 1) now [] bursts).InTime (now + s.timeout)))
  | .reading _, now, s => inferInstanceAs (Decidable (s.pending = none → ∀ feed ∈ s.feed,
    feed.InTime (now + s.timeout)))
  | .closing, _, _ => isTrue trivial

instance decidableTimely : (calls : List (Nat × SourceCall)) → (now : Nat) →
    (s : DecoderSource ℓ) → Decidable (s.Timely calls now)
  | [], _, _ => isTrue trivial
  | (wait, call) :: rest, now, s =>
    have := decidableTimely rest (now + wait + (s.perform call (now + wait)).cost)
      (s.perform call (now + wait)).source
    inferInstanceAs (Decidable (s.InTime call (now + wait) ∧
      Timely rest (now + wait + (s.perform call (now + wait)).cost)
        (s.perform call (now + wait)).source))

/-! ## What a source has yet to give -/

omit [Launcher ℓ] in
/-- The blocks that the decoder has yet to deliver. -/
def queued (s : DecoderSource ℓ) : List (List UInt8) :=
  (s.feed.map fun feed => feed.blocks.map (·.data)).getD []

/-- The blocks that reads have yet to get. -/
def ahead (s : DecoderSource ℓ) : List (List UInt8) := s.pending.toList ++ s.queued

end DecoderSource

namespace Played

/-- What a call answers, by the blocks that the source has yet to give. -/
def Answers (size : Nat) (width height : Int32) (ahead : List (List UInt8)) : Played → Prop
  | opened output ok => ok = true ↔ ∃ bytes ∈ output, size ≤ bytes.length
  | read before ok after => read before ok after = readOf width height before ahead.head?
  | closed => True

/-- What a call leaves of the blocks that the source has yet to give. -/
def leaves (size : Nat) (ahead : List (List UInt8)) : Played → List (List UInt8)
  | opened output true => (Feed.cut (size - 1) (output.getD [])).1
  | opened _ false | closed => []
  | read _ _ _ => ahead.tail

end Played

namespace DecoderSource

variable {ℓ : Type}

/-- A call has been answered as it has to be, and has left what it has to leave. -/
structure Plays (s : DecoderSource ℓ) (e : Played) (s' : DecoderSource ℓ) : Prop where
  answers : e.Answers s.pictureSize s.width s.height s.ahead
  ahead_eq : s'.ahead = e.leaves s.pictureSize s.ahead
  width_eq : s'.width = s.width
  height_eq : s'.height = s.height

/-- A wait has got the next block of the decoder, and none only if there is none. -/
structure Waits (s : DecoderSource ℓ) (block? : Option (List UInt8)) (s' : DecoderSource ℓ) :
    Prop where
  block?_eq : block? = s.queued.head?
  queued_eq : s'.queued = s.queued.tail
  pending_eq : s'.pending = s.pending
  width_eq : s'.width = s.width
  height_eq : s'.height = s.height

theorem waits_nextBlock {now : Nat} {s : DecoderSource ℓ}
    (h : ∀ feed ∈ s.feed, feed.InTime (now + s.timeout)) :
    s.Waits (s.nextBlock now).value (s.nextBlock now).source := by
  rw [nextBlock]
  cases hfeed : s.feed with
  | none => exact ⟨by simp [queued, hfeed], by simp [queued, hfeed], rfl, rfl, rfl⟩
  | some feed =>
    cases hblocks : feed.blocks with
    | nil =>
      have hnone : s.queued = [] := by simp [queued, hfeed, hblocks]
      simp only [hblocks]
      exact ⟨by rw [hnone]; rfl, by rw [hnone]; rfl, rfl, rfl, rfl⟩
    | cons block rest =>
      have hcons : s.queued = block.data :: rest.map (·.data) := by simp [queued, hfeed, hblocks]
      have harrival : block.arrival ≤ now + s.timeout := h feed hfeed block (by simp [hblocks])
      simp only [hblocks, if_pos harrival]
      exact ⟨by rw [hcons]; rfl, by rw [hcons]; rfl, rfl, rfl, rfl⟩

theorem plays_reading {now : Nat} {s : DecoderSource ℓ}
    (h : s.pending = none → ∀ feed ∈ s.feed, feed.InTime (now + s.timeout)) (frame : Frame) :
    s.Plays (.read frame (s.next now).value.isSome ((s.next now).value.getD frame))
      (s.next now).source := by
  rw [next]
  cases hpending : s.pending with
  | some block =>
    have hahead : s.ahead = block :: s.queued := by simp [ahead, hpending]
    exact ⟨by rw [hahead]; rfl, by rw [hahead]; rfl, rfl, rfl⟩
  | none =>
    have hwaits := waits_nextBlock (h hpending)
    have hahead : s.ahead = s.queued := by simp [ahead, hpending]
    refine ⟨?_, ?_, hwaits.width_eq, hwaits.height_eq⟩
    · simp only [Played.Answers, hwaits.block?_eq, hahead]
      cases s.queued.head? <;> rfl
    · simp [Played.leaves, ahead, hwaits.pending_eq, hwaits.queued_eq, hpending]

/-- What an opening makes of a decoder that was just started: it keeps the first picture, or ends
the decoder again if there is none. -/
def keepFirst (now : Nat) (started : DecoderSource ℓ) : Reply (DecoderSource ℓ) Bool :=
  match started.nextBlock now with
  | ⟨some block, cost, running⟩ => ⟨true, cost, { running with pending := some block }⟩
  | ⟨none, cost, running⟩ => ⟨false, cost, running.shut⟩

/-- The first picture is kept in front of the others. -/
theorem keepFirst_of_inTime {now : Nat} {started : DecoderSource ℓ}
    (h : ∀ feed ∈ started.feed, feed.InTime (now + started.timeout)) :
    (started.keepFirst now).value = started.queued.head?.isSome ∧
      (started.keepFirst now).source.ahead = started.queued ∧
      (started.keepFirst now).source.width = started.width ∧
      (started.keepFirst now).source.height = started.height := by
  have hwaits := waits_nextBlock h
  rw [keepFirst]
  rcases hwait : started.nextBlock now with ⟨_ | block, cost, running⟩
  · rw [hwait] at hwaits
    have hnone : started.queued = [] := List.head?_eq_none_iff.mp hwaits.block?_eq.symm
    exact ⟨by rw [hnone]; rfl, by rw [hnone]; rfl, hwaits.width_eq, hwaits.height_eq⟩
  · rw [hwait] at hwaits
    have hsome : started.queued = block :: running.queued := by
      obtain ⟨rest, hrest⟩ := List.head?_eq_some_iff.mp hwaits.block?_eq.symm
      rw [hwaits.queued_eq, hrest]
      rfl
    exact ⟨by rw [hsome]; rfl, by rw [hsome]; rfl, hwaits.width_eq, hwaits.height_eq⟩

variable [Launcher ℓ]

theorem start_of_none {uri : String} {now : Nat} {s : DecoderSource ℓ} {system : ℓ}
    (hsize : 0 < s.pictureSize)
    (h : Launcher.launch s.program (decoderArguments uri s.width s.height) s.system =
      (none, system)) :
    s.start uri now = ⟨false, 0, { s with system := system }⟩ := by
  obtain ⟨size, hsucc⟩ := Nat.exists_eq_succ_of_ne_zero (Nat.ne_of_gt hsize)
  simp only [start, hsucc, h]

theorem start_of_some {uri : String} {now : Nat} {s : DecoderSource ℓ} {bursts : List Burst}
    {system : ℓ} (hsize : 0 < s.pictureSize)
    (h : Launcher.launch s.program (decoderArguments uri s.width s.height) s.system =
      (some bursts, system)) :
    s.start uri now = keepFirst now
      { s with
        system := system
        feed := some (Feed.ofBursts (s.pictureSize - 1) now [] bursts) } := by
  obtain ⟨size, hsucc⟩ := Nat.exists_eq_succ_of_ne_zero (Nat.ne_of_gt hsize)
  simp only [start, hsucc, h]
  rfl

/-- An opening succeeds if the decoder writes enough for a picture, and leaves all its blocks. -/
theorem plays_opening {uri : String} {now : Nat} {s : DecoderSource ℓ} (hsize : 0 < s.pictureSize)
    (h : s.InTime (.opening uri) now) :
    s.Plays (.opened ((s.bursts? uri).map outputOf) (VideoSource.openAt uri now s).value)
      (VideoSource.openAt uri now s).source := by
  have hshut : 0 < s.shut.pictureSize := hsize
  simp only [VideoSource.openAt]
  rcases hlaunch : Launcher.launch s.program (decoderArguments uri s.width s.height) s.system
    with ⟨_ | bursts, system⟩
  · have hbursts : s.bursts? uri = none := congrArg Prod.fst hlaunch
    rw [hbursts, start_of_none hshut hlaunch]
    exact ⟨by simp [Played.Answers], rfl, rfl, rfl⟩
  · have hbursts : s.bursts? uri = some bursts := congrArg Prod.fst hlaunch
    rw [hbursts, start_of_some hshut hlaunch]
    generalize hstarted : { s.shut with
      system := system
      feed := some (Feed.ofBursts (s.shut.pictureSize - 1) now [] bursts) } = started
    have hqueued : started.queued = (Feed.cut (s.pictureSize - 1) (outputOf bursts)).1 := by
      rw [← hstarted]
      exact Feed.data_ofBursts now [] bursts (Nat.zero_le _)
    have hwait : ∀ feed ∈ started.feed, feed.InTime (now + started.timeout) := by
      rw [← hstarted]
      rintro feed ⟨⟩
      exact h bursts hbursts
    obtain ⟨hvalue, hahead, hwidth, hheight⟩ := keepFirst_of_inTime hwait
    have hroom : started.queued.head?.isSome ↔ s.pictureSize ≤ (outputOf bursts).length := by
      rw [hqueued]
      exact Feed.isSome_head?_cut hsize
    refine ⟨?_, ?_, ?_, ?_⟩
    · simp [Played.Answers, hvalue, hroom]
    · rw [hahead, hvalue]
      cases hhead : started.queued.head? with
      | none => exact List.head?_eq_none_iff.mp hhead
      | some block => exact hqueued
    · rw [hwidth, ← hstarted]; rfl
    · rw [hheight, ← hstarted]; rfl

theorem plays_perform {call : SourceCall} {now : Nat} {s : DecoderSource ℓ}
    (hsize : 0 < s.pictureSize) (h : s.InTime call now) :
    s.Plays (s.perform call now).value (s.perform call now).source := by
  cases call with
  | opening uri => exact plays_opening hsize h
  | reading frame => exact plays_reading h frame
  | closing => exact ⟨trivial, rfl, rfl, rfl⟩

/-! ## All calls -/

/-- Any call is answered by what the calls before it have left. -/
theorem answers_of_play {calls : List (Nat × SourceCall)} {now : Nat} {s : DecoderSource ℓ}
    (hsize : 0 < s.pictureSize) (h : s.Timely calls now) {before after : List Played} {e : Played}
    (hplay : s.play calls now = before ++ e :: after) :
    e.Answers s.pictureSize s.width s.height
      (before.foldl (Played.leaves s.pictureSize) s.ahead) := by
  induction calls generalizing now s before with
  | nil => simp [play] at hplay
  | cons first rest ih =>
    obtain ⟨wait, call⟩ := first
    obtain ⟨hcall, hrest⟩ := h
    have hplays := plays_perform hsize hcall
    have hsame : (s.perform call (now + wait)).source.pictureSize = s.pictureSize := by
      rw [pictureSize, hplays.width_eq, hplays.height_eq]
      rfl
    cases before with
    | nil =>
      obtain rfl : (s.perform call (now + wait)).value = e := (List.cons.inj hplay).1
      exact hplays.answers
    | cons earlier before =>
      obtain ⟨rfl, hlater⟩ := List.cons.inj hplay
      have hanswers := ih (hsame.symm ▸ hsize) hrest hlater
      rwa [hsame, hplays.width_eq, hplays.height_eq, hplays.ahead_eq] at hanswers

end DecoderSource

/-- Each read takes one block, or finds none. -/
theorem Played.foldl_leaves {size : Nat} {reads : List Played} (h : ∀ e ∈ reads, e.IsRead)
    (ahead : List (List UInt8)) : reads.foldl (leaves size) ahead = ahead.drop reads.length := by
  induction reads generalizing ahead with
  | nil => rfl
  | cons e reads ih =>
    cases e with
    | read before ok after =>
      rw [List.foldl_cons, ih fun e he => h e (List.mem_cons_of_mem _ he)]
      simp [leaves]
    | opened | closed => cases h _ List.mem_cons_self

/-- What went before is gone when the source is left without a decoder. -/
theorem Played.foldl_leaves_of_darkens {size : Nat} {events : List Played}
    (h : ∀ last ∈ events.getLast?, last.Darkens) : events.foldl (leaves size) [] = [] := by
  cases hlast : events.getLast? with
  | none =>
    rw [List.getLast?_eq_none_iff.mp hlast]
    rfl
  | some last =>
    obtain ⟨front, rfl⟩ := List.getLast?_eq_some_iff.mp hlast
    have hdark : last.Darkens := h last hlast
    rw [List.foldl_append]
    cases last with
    | opened output ok =>
      obtain rfl : ok = false := hdark
      rfl
    | read => cases hdark
    | closed => rfl

/-- A source plays what its decoders write, in order and from the start. -/
structure PlaysInOrder (size : Nat) (width height : Int32) (events : List Played) : Prop where
  /-- An opening succeeds if there is a decoder that writes enough for a picture. -/
  opened_iff : ∀ before output ok after, events = before ++ .opened output ok :: after →
    (ok = true ↔ ∃ bytes ∈ output, size ≤ bytes.length)
  /-- A read gets the block of the last decoder whose number is that of the reads before it. -/
  read_eq : ∀ before bytes reads frame ok frame' after,
    events = before ++ .opened (some bytes) true :: (reads ++ .read frame ok frame' :: after) →
    (∀ e ∈ reads, e.IsRead) →
    Played.read frame ok frame' = .readOf width height frame (blockAt? size bytes reads.length)
  /-- A read fails when nothing is open, and leaves the frame alone. -/
  dark : ∀ before reads frame ok frame' after,
    events = before ++ (reads ++ .read frame ok frame' :: after) → (∀ e ∈ reads, e.IsRead) →
    (∀ last ∈ before.getLast?, last.Darkens) → ok = false ∧ frame' = frame

namespace DecoderSource

variable {ℓ : Type} [Launcher ℓ]

/-- Whatever the calls are, and whatever the decoders write in whatever bursts: if no call waits
longer than the limit, the source plays what they write. -/
theorem playsInOrder_play {calls : List (Nat × SourceCall)} {now : Nat} {s : DecoderSource ℓ}
    (hsize : 0 < s.pictureSize) (h : s.shut.Timely calls now) :
    PlaysInOrder s.pictureSize s.width s.height (s.shut.play calls now) := by
  have hanswers := @answers_of_play ℓ _ calls now s.shut hsize h
  refine ⟨?_, ?_, ?_⟩
  · intro before output ok after hevents
    exact hanswers hevents
  · intro before bytes reads frame ok frame' after hevents hreads
    rw [← List.cons_append, ← List.append_assoc] at hevents
    have hread := hanswers hevents
    have hsucc : s.pictureSize - 1 + 1 = s.pictureSize := Nat.sub_add_cancel hsize
    rw [List.foldl_append, List.foldl_cons, Played.foldl_leaves hreads] at hread
    simp only [Played.Answers, Played.leaves, Option.getD_some, List.head?_drop,
      Feed.getElem?_cut] at hread
    rw [hread, ← hsucc]
    rfl
  · intro before reads frame ok frame' after hevents hreads hdark
    rw [← List.append_assoc] at hevents
    have hread := hanswers hevents
    have hnone : s.shut.ahead = [] := rfl
    rw [List.foldl_append, hnone, Played.foldl_leaves_of_darkens hdark,
      Played.foldl_leaves hreads, List.drop_nil] at hread
    obtain ⟨-, hok, hframe⟩ := Played.read.inj hread
    exact ⟨hok, hframe⟩

/-- Two pictures of the first decoder, then the only one of the second, and a third decoder that
writes too little for a picture. -/
theorem playsInOrder_player :
    let s : DecoderSource Rehearsal.PlayerSystem :=
      { system := { program := "player" }, program := "player", width := 1, height := 1,
        timeout := 5000 }
    let calls : List (Nat × SourceCall) :=
      [(0, .opening "hex:01020304;delay:2;hex:05060708090a"), (0, .reading {}), (1, .reading {}),
        (0, .opening "hex:0b0c;hex:0d0e"), (0, .reading {}), (0, .reading {}),
        (0, .opening "hex:0102"), (0, .reading {}), (0, .closing)]
    s.shut.play calls 0 =
        [.opened (some [1, 2, 3, 4, 5, 6, 7, 8, 9, 10]) true,
          .read {} true ⟨[1, 2, 3], 1, 1⟩, .read {} true ⟨[4, 5, 6], 1, 1⟩,
          .opened (some [11, 12, 13, 14]) true, .read {} true ⟨[11, 12, 13], 1, 1⟩,
          .read {} false {}, .opened (some [1, 2]) false, .read {} false {}, .closed] ∧
      PlaysInOrder s.pictureSize s.width s.height (s.shut.play calls 0) :=
  ⟨by decide +kernel, playsInOrder_play (by decide +kernel) (by decide +kernel)⟩

end DecoderSource

end LiveDetection
