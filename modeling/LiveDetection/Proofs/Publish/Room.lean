import LiveDetection.Proofs.Publish.Lines
import Mathlib.Data.List.Induction

/-!
# Lines on a device with limited room

A device with limited room takes the first bytes of all lines, and it does not matter in which
pieces it takes them or whether a flush fails between two of them. A message succeeds if its line
is among these bytes as a whole and the flush behind it does not fail.
-/

namespace LiveDetection

section

variable {δ : Type} {good : δ → Prop} {taken : δ → List UInt8} {flushes : δ → Nat} {room : Nat}

/-! ## Bytes -/

theorem take_take_append (front back : List UInt8) (room : Nat) :
    (front.take room ++ back).take room = (front ++ back).take room := by
  have hleft : room - min room front.length = room - front.length := by omega
  rw [List.take_append, List.take_append, List.take_take, List.length_take, Nat.min_self, hleft]

/-- What becomes of bytes that are written to a device: the first of them fill the room, and the
answer says whether there was room for all. -/
structure Fills (good : δ → Prop) (taken : δ → List UInt8) (flushes : δ → Nat) (room : Nat)
    (bytes : List UInt8) (d : δ) (answer : Except String Unit) (d' : δ) : Prop where
  taken_eq : taken d' = (taken d ++ bytes).take room
  ok_iff : answer = .ok () ↔ (taken d ++ bytes).length ≤ room
  flushes_eq : flushes d' = flushes d
  good : good d'

/-- A full device takes the first bytes that there is room for, which are none. -/
theorem fills_of_full {bytes : List UInt8} {d d' : δ} (hbytes : bytes ≠ [])
    (hfull : (taken d).length = room) (htaken : taken d' = taken d)
    (hflushes : flushes d' = flushes d) (hgood : good d') (reason : String) :
    Fills good taken flushes room bytes d (.error reason) d' := by
  refine ⟨?_, ?_, hflushes, hgood⟩
  · rw [htaken, List.take_left' hfull]
  · have hpos := List.length_pos_iff.mpr hbytes
    refine iff_of_false (by simp) ?_
    rw [List.length_append]
    omega

/-- Bytes that are written only if those before them were taken fill the room like all at once. -/
theorem Fills.append {front back : List UInt8} {d d₁ d₂ : δ} {last : Except String Unit}
    (hfront : Fills good taken flushes room front d (.ok ()) d₁)
    (hback : Fills good taken flushes room back d₁ last d₂) :
    Fills good taken flushes room (front ++ back) d last d₂ := by
  have hfits := hfront.ok_iff.mp rfl
  have htaken : taken d₁ ++ back = taken d ++ (front ++ back) := by
    rw [hfront.taken_eq, List.take_of_length_le hfits, List.append_assoc]
  exact ⟨htaken ▸ hback.taken_eq, htaken ▸ hback.ok_iff,
    hback.flushes_eq.trans hfront.flushes_eq, hback.good⟩

/-- Behind bytes for which there was no room others would not have been taken either. -/
theorem Fills.append_of_error {front : List UInt8} {d d' : δ} {reason : String}
    (h : Fills good taken flushes room front d (.error reason) d') (back : List UInt8) :
    Fills good taken flushes room (front ++ back) d (.error reason) d' := by
  have hover : ¬ (taken d ++ front).length ≤ room := fun hfits => by cases h.ok_iff.mpr hfits
  refine ⟨?_, ?_, h.flushes_eq, h.good⟩
  · rw [h.taken_eq, ← List.append_assoc, List.take_append_of_le_length (Nat.le_of_not_ge hover)]
  · refine iff_of_false (by simp) ?_
    rw [← List.append_assoc, List.length_append]
    omega

end

/-! ## Devices -/

variable {δ : Type} [Device δ] {good : δ → Prop} {taken : δ → List UInt8} {flushes : δ → Nat}
  {room failing : Nat}

/-- A device with room for `room` bytes in all, of which flush number `failing` fails. While there
is room it takes some of what it is offered, in pieces of any size, and then nothing. -/
structure HasRoom (good : δ → Prop) (taken : δ → List UInt8) (flushes : δ → Nat)
    (room failing : Nat) : Prop where
  length_le : ∀ d, good d → (taken d).length ≤ room
  accept : ∀ bytes d, bytes ≠ [] → good d → (taken d).length < room →
    ∃ n d', Device.accept bytes d = (.ok n, d') ∧ 0 < n ∧ n ≤ bytes.length ∧
      taken d' = taken d ++ bytes.take n ∧ flushes d' = flushes d ∧ good d'
  refuse : ∀ bytes d, bytes ≠ [] → good d → (taken d).length = room →
    ∃ answer d', Device.accept bytes d = (answer, d') ∧ (∀ n, answer = .ok n → n = 0) ∧
      taken d' = taken d ∧ flushes d' = flushes d ∧ good d'
  flush : ∀ d, good d →
    ∃ answer d', Device.flush d = (answer, d') ∧ (answer = .ok () ↔ flushes d + 1 ≠ failing) ∧
      taken d' = taken d ∧ flushes d' = flushes d + 1 ∧ good d'

/-- A device that is offered bytes takes a piece of them, or it is full. -/
theorem HasRoom.accept_cases (h : HasRoom good taken flushes room failing) {bytes : List UInt8}
    {d d' : δ} {answer : Except String Nat} (hbytes : bytes ≠ []) (hd : good d)
    (haccept : Device.accept bytes d = (answer, d')) :
    flushes d' = flushes d ∧ good d' ∧
      ((∃ n, answer = .ok n ∧ 0 < n ∧ taken d' = taken d ++ bytes.take n) ∨
        (∀ n, answer = .ok n → n = 0) ∧ (taken d).length = room ∧ taken d' = taken d) := by
  have hheld := h.length_le d hd
  by_cases hroom : (taken d).length < room
  · obtain ⟨n, d'', hpiece, hpos, -, htaken, hflushes, hgood⟩ := h.accept bytes d hbytes hd hroom
    obtain ⟨rfl, rfl⟩ := Prod.mk.inj (haccept.symm.trans hpiece)
    exact ⟨hflushes, hgood, .inl ⟨n, rfl, hpos, htaken⟩⟩
  · have hfull : (taken d).length = room := by omega
    obtain ⟨answer', d'', hnone, hanswer, htaken, hflushes, hgood⟩ :=
      h.refuse bytes d hbytes hd hfull
    obtain ⟨rfl, rfl⟩ := Prod.mk.inj (haccept.symm.trans hnone)
    exact ⟨hflushes, hgood, .inr ⟨hanswer, hfull, htaken⟩⟩

theorem fills_offerAll (h : HasRoom good taken flushes room failing) (bytes : List UInt8) {d : δ}
    (hd : good d) :
    Fills good taken flushes room bytes d (offerAll bytes d).1 (offerAll bytes d).2 := by
  fun_induction offerAll bytes d with
  | case1 d =>
    have hheld := h.length_le d hd
    rw [← List.append_nil (taken d)] at hheld
    exact ⟨by rw [List.take_of_length_le hheld, List.append_nil], iff_of_true rfl hheld, rfl, hd⟩
  | case2 bytes d hbytes reason d' haccept =>
    obtain ⟨hflushes, hgood, ⟨n, hn, -, -⟩ | ⟨-, hfull, htaken⟩⟩ :=
      h.accept_cases hbytes hd haccept
    · cases hn
    · exact fills_of_full hbytes hfull htaken hflushes hgood reason
  | case3 bytes d hbytes d' haccept =>
    obtain ⟨hflushes, hgood, ⟨n, hn, hpos, -⟩ | ⟨-, hfull, htaken⟩⟩ :=
      h.accept_cases hbytes hd haccept
    · cases hn
      cases hpos
    · exact fills_of_full hbytes hfull htaken hflushes hgood _
  | case4 bytes d hbytes n d' haccept ih =>
    obtain ⟨hflushes, hgood, ⟨m, hm, -, htaken⟩ | ⟨hnone, -, -⟩⟩ :=
      h.accept_cases hbytes hd haccept
    · cases hm
      have hrest := ih hgood
      have hall : taken d' ++ bytes.drop (n + 1) = taken d ++ bytes := by
        rw [htaken, List.append_assoc, List.take_append_drop]
      exact ⟨hall ▸ hrest.taken_eq, hall ▸ hrest.ok_iff, hrest.flushes_eq.trans hflushes,
        hrest.good⟩
    · cases hnone (n + 1) rfl

theorem fills_writeLine (h : HasRoom good taken flushes room failing) (text : String) {d : δ}
    (hd : good d) :
    Fills good taken flushes room (text.toUTF8.toList ++ [lineEnd]) d (writeLine text d).1
      (writeLine text d).2 := by
  have htext := fills_offerAll h text.toUTF8.toList hd
  simp only [writeLine, write_device, toUTF8_newline]
  rcases hoffer : offerAll text.toUTF8.toList d with ⟨answer, d'⟩
  rw [hoffer] at htext
  cases answer with
  | error reason => exact htext.append_of_error [lineEnd]
  | ok _ => exact htext.append (fills_offerAll h [lineEnd] htext.good)

namespace LineWriter

/-! ## Messages -/

/-- What becomes of one message: its line fills the room, and it is flushed if there was room for
all of it. -/
structure Adds (good : δ → Prop) (taken : δ → List UInt8) (flushes : δ → Nat)
    (room failing : Nat) (line : List UInt8) (w : LineWriter δ) (answer : Except RunError Unit)
    (w' : LineWriter δ) : Prop where
  taken_eq : taken w'.sink = (taken w.sink ++ line).take room
  flushes_eq : flushes w'.sink =
    flushes w.sink + if (taken w.sink ++ line).length ≤ room then 1 else 0
  ok_iff : answer = .ok () ↔
    (taken w.sink ++ line).length ≤ room ∧ flushes w.sink + 1 ≠ failing
  error : ∀ e, answer = .error e → ∃ reason, e = .transport reason
  good : good w'.sink

theorem adds_publish (h : HasRoom good taken flushes room failing) {w : LineWriter δ}
    (hw : good w.sink) (queue : String) (message : Message) :
    Adds good taken flushes room failing (lineBytes queue message) w
      (Publisher.publish queue message w).1 (Publisher.publish queue message w).2 := by
  have hline := fills_writeLine h (Json.print (lineValue queue message)) hw
  rw [show (Json.print (lineValue queue message)).toUTF8.toList ++ [lineEnd] =
    lineBytes queue message from (lineBytes_eq queue message).symm] at hline
  simp only [Publisher.publish]
  rcases hwrite : writeLine (Json.print (lineValue queue message)) w.sink with ⟨answer, written⟩
  rw [hwrite] at hline
  cases answer with
  | error reason =>
    have hover : ¬ (taken w.sink ++ lineBytes queue message).length ≤ room := fun hfits => by
      cases hline.ok_iff.mpr hfits
    refine ⟨hline.taken_eq, ?_, iff_of_false (by simp) fun hall => hover hall.1, ?_, hline.good⟩
    · rw [if_neg hover]
      exact hline.flushes_eq
    · intro e he
      cases he
      exact ⟨reason, rfl⟩
  | ok _ =>
    have hfits := hline.ok_iff.mp rfl
    obtain ⟨flushed, d, hflush, hanswer, htaken, hflushes, hgood⟩ := h.flush written hline.good
    rw [hline.flushes_eq] at hanswer hflushes
    have hcount : flushes d = flushes w.sink +
        if (taken w.sink ++ lineBytes queue message).length ≤ room then 1 else 0 := by
      rw [hflushes, if_pos hfits]
    simp only [flush_device, hflush]
    cases flushed with
    | error reason =>
      have hfails : ¬ flushes w.sink + 1 ≠ failing := fun hpasses => by cases hanswer.mpr hpasses
      refine ⟨htaken.trans hline.taken_eq, hcount, iff_of_false (by simp) fun hall => hfails hall.2,
        ?_, hgood⟩
      intro e he
      cases he
      exact ⟨reason, rfl⟩
    | ok _ =>
      refine ⟨htaken.trans hline.taken_eq, hcount, iff_of_true rfl ⟨hfits, hanswer.mp rfl⟩, ?_,
        hgood⟩
      intro e he
      cases he

/-- The bytes of the lines of messages. -/
def linesOf (sent : List (String × Message)) : List UInt8 :=
  sent.flatMap fun e => lineBytes e.1 e.2

theorem linesOf_concat (sent : List (String × Message)) (last : String × Message) :
    linesOf (sent ++ [last]) = linesOf sent ++ lineBytes last.1 last.2 := by
  simp [linesOf]

/-- A writer stands behind messages: the first bytes of their lines fill the room. While there is
room for all, every message was flushed, so the next flush has the number of the next message. -/
structure Behind (good : δ → Prop) (taken : δ → List UInt8) (flushes : δ → Nat) (room : Nat)
    (sent : List (String × Message)) (w : LineWriter δ) : Prop where
  taken_eq : taken w.sink = (linesOf sent).take room
  flushes_eq : (linesOf sent).length ≤ room → flushes w.sink = sent.length
  good : good w.sink

variable {sent : List (String × Message)} {w : LineWriter δ}

omit [Device δ] in
/-- No line is empty, so there is no room for another one where there was none for those before. -/
theorem Behind.fits_iff (hbehind : Behind good taken flushes room sent w)
    (next : String × Message) :
    (taken w.sink ++ lineBytes next.1 next.2).length ≤ room ↔
      (linesOf (sent ++ [next])).length ≤ room := by
  have hpos : 0 < (lineBytes next.1 next.2).length := by
    rw [lineBytes_eq, List.length_append, List.length_singleton]
    omega
  rw [hbehind.taken_eq, linesOf_concat, List.length_append, List.length_append, List.length_take]
  omega

theorem Behind.publish (h : HasRoom good taken flushes room failing)
    (hbehind : Behind good taken flushes room sent w) (next : String × Message) :
    Behind good taken flushes room (sent ++ [next]) (Publisher.publish next.1 next.2 w).2 := by
  have hadds := adds_publish h hbehind.good next.1 next.2
  refine ⟨?_, fun hall => ?_, hadds.good⟩
  · rw [hadds.taken_eq, hbehind.taken_eq, linesOf_concat, take_take_append]
  · have hfits := (hbehind.fits_iff next).mpr hall
    have hbefore : (linesOf sent).length ≤ room := by
      rw [linesOf_concat, List.length_append] at hall
      omega
    rw [hadds.flushes_eq, if_pos hfits, hbehind.flushes_eq hbefore, List.length_append,
      List.length_singleton]

theorem behind_publishEach (h : HasRoom good taken flushes room failing) {d : δ} (hd : good d)
    (hfresh : taken d = []) (hcount : flushes d = 0) (sent : List (String × Message)) :
    Behind good taken flushes room sent (publishEach sent (LineWriter.mk d)).2 := by
  induction sent using List.reverseRecOn with
  | nil => exact ⟨hfresh.trans List.take_nil.symm, fun _ => hcount, hd⟩
  | append_singleton front last ih =>
    rw [publishEach_concat]
    exact ih.publish h last

/-- What becomes of a message among others that are handed to a fresh device. -/
theorem adds_publishEach (h : HasRoom good taken flushes room failing) {d : δ} (hd : good d)
    (hfresh : taken d = []) (hcount : flushes d = 0) {sent : List (String × Message)} {i : Nat}
    (hi : i < sent.length) :
    Adds good taken flushes room failing (lineBytes sent[i].1 sent[i].2)
      (publishEach (sent.take i) (LineWriter.mk d)).2
      (Publisher.publish sent[i].1 sent[i].2 (publishEach (sent.take i) (LineWriter.mk d)).2).1
      (publishEach (sent.take (i + 1)) (LineWriter.mk d)).2 := by
  rw [List.take_succ_eq_append_getElem hi, publishEach_concat]
  exact adds_publish h (behind_publishEach h hd hfresh hcount (sent.take i)).good _ _

/-- What becomes of messages that are handed to a writer one after the other, whether or not those
before them failed. The first bytes of their lines fill the room. -/
structure FillsInOrder (taken : δ → List UInt8) (flushes : δ → Nat) (room failing : Nat)
    (sent : List (String × Message)) (start : LineWriter δ) : Prop where
  /-- Behind any number of messages, failed flushes or not, the device holds the first bytes of
  their lines, as many as there is room for. -/
  taken_eq : ∀ i ≤ sent.length,
    taken (publishEach (sent.take i) start).2.sink =
      (linesOf (sent.take i)).take (min room (linesOf (sent.take i)).length)
  length_eq : (publishEach sent start).1.length = sent.length
  /-- A message succeeds if there is room for its line behind those before it and its flush is not
  the one that fails. -/
  ok_iff : ∀ i answer, (publishEach sent start).1[i]? = some answer →
    (answer = .ok () ↔ (linesOf (sent.take (i + 1))).length ≤ room ∧ i + 1 ≠ failing)
  /-- A message is flushed if there is room for all bytes of its line. -/
  flushes_eq : ∀ i < sent.length,
    flushes (publishEach (sent.take (i + 1)) start).2.sink =
      flushes (publishEach (sent.take i) start).2.sink +
        if (linesOf (sent.take (i + 1))).length ≤ room then 1 else 0
  error : ∀ e, .error e ∈ (publishEach sent start).1 → ∃ reason, e = .transport reason

/-- Messages on a fresh device with limited room, whatever the pieces are in which it takes bytes,
fill the room with the first bytes of their lines, in their order. Each of them fails for itself,
and none of them changes what is left of the others. -/
theorem fillsInOrder_publishEach (h : HasRoom good taken flushes room failing) {d : δ}
    (hd : good d) (hfresh : taken d = []) (hcount : flushes d = 0)
    (sent : List (String × Message)) :
    FillsInOrder taken flushes room failing sent (LineWriter.mk d) := by
  have hbehind : ∀ i, Behind good taken flushes room (sent.take i)
      (publishEach (sent.take i) (LineWriter.mk d)).2 := fun i =>
    behind_publishEach h hd hfresh hcount (sent.take i)
  have hfits : ∀ i (hi : i < sent.length),
      (taken (publishEach (sent.take i) (LineWriter.mk d)).2.sink ++
          lineBytes sent[i].1 sent[i].2).length ≤ room ↔
        (linesOf (sent.take (i + 1))).length ≤ room := by
    intro i hi
    rw [(hbehind i).fits_iff sent[i], List.take_succ_eq_append_getElem hi]
  constructor
  case taken_eq =>
    intro i _
    rw [(hbehind i).taken_eq, ← List.take_eq_take_min]
  case length_eq => exact length_publishEach sent _
  case ok_iff =>
    intro i answer hsome
    obtain ⟨hi, rfl⟩ := getElem?_publishEach_eq_some.mp hsome
    rw [(adds_publishEach h hd hfresh hcount hi).ok_iff, hfits i hi]
    refine and_congr_right fun hall => ?_
    -- There was room for the lines before this one as well, so all of them were flushed.
    have hbefore : (linesOf (sent.take i)).length ≤ room := by
      rw [List.take_succ_eq_append_getElem hi, linesOf_concat, List.length_append] at hall
      omega
    rw [(hbehind i).flushes_eq hbefore, List.length_take_of_le (Nat.le_of_lt hi)]
  case flushes_eq =>
    intro i hi
    rw [(adds_publishEach h hd hfresh hcount hi).flushes_eq]
    simp only [hfits i hi]
  case error =>
    intro e he
    obtain ⟨i, hsome⟩ := List.mem_iff_getElem?.mp he
    obtain ⟨hi, heq⟩ := getElem?_publishEach_eq_some.mp hsome
    exact (adds_publishEach h hd hfresh hcount hi).error e heq.symm

end LineWriter

/-- A sink with limits takes as many bytes as there is room for, and one of its flushes fails. -/
theorem Rehearsal.hasRoom_limitedSink (room failing : Nat) :
    HasRoom (fun s : LimitedSink => s.room = some room ∧ s.failingFlush = failing ∧
      s.taken.length ≤ room) LimitedSink.taken LimitedSink.flushes room failing where
  length_le _ hs := hs.2.2
  accept bytes s hbytes hs hroom := by
    have hpos := List.length_pos_iff.mpr hbytes
    have hfree : room - s.taken.length ≠ 0 := by omega
    refine ⟨min (room - s.taken.length) bytes.length,
      { s with taken := s.taken ++ bytes.take (room - s.taken.length) }, ?_, by omega, by omega, ?_,
      rfl, hs.1, hs.2.1, ?_⟩
    · simp [Device.accept, hs.1, hfree]
    · rw [← List.take_eq_take_min]
    · rw [List.length_append, List.length_take]
      omega
  refuse bytes s _ hs hfull := by
    refine ⟨.error "closed", { s with taken := s.taken ++ bytes.take 0 }, ?_, by simp, by simp,
      rfl, hs.1, hs.2.1, by simp [hfull]⟩
    simp [Device.accept, hs.1, hfull]
  flush s hs := by
    refine ⟨_, { s with flushes := s.flushes + 1 }, rfl, ?_, rfl, rfl, hs⟩
    simp [hs.2.1]

/-- The sample messages on a sink in which the room ends inside the second line, and of which the
first flush fails. -/
theorem LineWriter.fillsInOrder_sampleMessages :
    HasRoom (fun s : Rehearsal.LimitedSink => s.room = some 250 ∧ s.failingFlush = 1 ∧
        s.taken.length ≤ 250) Rehearsal.LimitedSink.taken Rehearsal.LimitedSink.flushes 250 1 ∧
      FillsInOrder Rehearsal.LimitedSink.taken Rehearsal.LimitedSink.flushes 250 1 sampleMessages
        (LineWriter.mk { room := some 250, failingFlush := 1 }) :=
  ⟨Rehearsal.hasRoom_limitedSink 250 1,
    fillsInOrder_publishEach (Rehearsal.hasRoom_limitedSink 250 1) ⟨rfl, rfl, by decide⟩ rfl rfl
      sampleMessages⟩

end LiveDetection
