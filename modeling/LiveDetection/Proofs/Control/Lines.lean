import LiveDetection.Control.Channel
import Mathlib.Data.List.Basic
import Mathlib.Data.List.TakeWhile

/-!
# What the watcher makes of the control channel

The lines of a channel are those of the bytes that arrive before it ends, whatever reads bring
them and however often a read is interrupted. The watcher takes these bytes line by line, so its
answer depends on them and on the end of the channel only: it asks for a clean end when one of
the lines is the command, and reports the end of the channel otherwise.
-/

namespace LiveDetection.Control

/-- The bytes that reads bring before the channel ends. -/
def arrived : List ChannelRead → List UInt8
  | [] => []
  | .bytes data :: reads => data ++ arrived reads
  | .interrupted :: reads => arrived reads
  | .failed _ :: _ => []

/-- Why the channel breaks; a channel that comes to its end has no reason. -/
def breakReason? : List ChannelRead → Option String
  | [] => none
  | .failed reason :: _ => some reason
  | _ :: reads => breakReason? reads

/-- A line without its newline is the command, with at most one carriage return behind it. -/
def SaysQuit (line : List UInt8) : Prop := line = quitLine ∨ line = quitLine ++ [carriageReturn]

/-- One of the lines that end with a newline is the command; or the channel came to its end and
what stands behind the last newline is. -/
def AsksToQuit (bytes : List UInt8) (broken : Option String) : Prop :=
  (∃ line ∈ (bytes.splitOn newline).dropLast, SaysQuit line) ∨
    broken = none ∧ SaysQuit ((bytes.splitOn newline).getLast (List.splitOn_ne_nil newline bytes))

instance : DecidablePred SaysQuit := fun line =>
  inferInstanceAs (Decidable (line = quitLine ∨ line = quitLine ++ [carriageReturn]))

instance (bytes : List UInt8) (broken : Option String) : Decidable (AsksToQuit bytes broken) :=
  inferInstanceAs (Decidable (_ ∨ _))

/-- What the end of a channel is reported as. -/
def endMessage : (broken : Option String) → String
  | none => closedTooEarly
  | some reason => readErrorMessage reason

/-! ## The command -/

theorem quitLine_eq : quitLine = [113, 117, 105, 116] := by decide +kernel

theorem dropLast?_append (b : UInt8) (text : List UInt8) : dropLast? b (text ++ [b]) = text := by
  simp [dropLast?]

theorem dropLast?_of_not_mem {b : UInt8} {text : List UInt8} (h : b ∉ text) :
    dropLast? b text = text := by
  rw [dropLast?, if_neg]
  intro hlast
  exact h (List.mem_of_getLast? hlast)

/-- A text is the command once a carriage return is dropped exactly if it says so. -/
theorem dropLast?_carriageReturn_eq_quitLine_iff (text : List UInt8) :
    dropLast? carriageReturn text = quitLine ↔ SaysQuit text := by
  constructor
  · intro h
    rw [dropLast?] at h
    split at h
    · rename_i hlast
      obtain ⟨front, rfl⟩ := List.getLast?_eq_some_iff.mp hlast
      rw [List.dropLast_concat] at h
      exact .inr (by rw [h])
    · exact .inl h
  · rintro (rfl | rfl)
    · exact dropLast?_of_not_mem (by rw [quitLine_eq]; decide)
    · exact dropLast?_append _ _

/-- A line with its newline is the command. -/
theorem isQuit_append_newline (line : List UInt8) :
    isQuit (line ++ [newline]) = true ↔ SaysQuit line := by
  rw [isQuit, decide_eq_true_iff, withoutLineEnd, dropLast?_append,
    dropLast?_carriageReturn_eq_quitLine_iff]

/-- A line without a newline is the command. -/
theorem isQuit_of_not_mem {line : List UInt8} (h : newline ∉ line) :
    isQuit line = true ↔ SaysQuit line := by
  rw [isQuit, decide_eq_true_iff, withoutLineEnd, dropLast?_of_not_mem h,
    dropLast?_carriageReturn_eq_quitLine_iff]

theorem not_saysQuit_nil : ¬ SaysQuit [] := by
  simp [SaysQuit, quitLine_eq]

/-! ## Lines of bytes -/

/-- The first line says what is asked, or the lines behind it do. -/
theorem asksToQuit_append_newline {front : List UInt8} (hfront : newline ∉ front)
    (back : List UInt8) (broken : Option String) :
    AsksToQuit (front ++ newline :: back) broken ↔ SaysQuit front ∨ AsksToQuit back broken := by
  have hne : back.splitOn newline ≠ [] := List.splitOn_ne_nil newline back
  have hsplit := List.splitOn_append_cons_self_of_not_mem hfront back
  simp only [AsksToQuit, hsplit, List.dropLast_cons_of_ne_nil hne, List.getLast_cons hne,
    List.exists_mem_cons_iff, or_assoc]

/-- Without a newline there is only what stands behind the last one. -/
theorem asksToQuit_of_not_mem {bytes : List UInt8} (h : newline ∉ bytes)
    (broken : Option String) :
    AsksToQuit bytes broken ↔ broken = none ∧ SaysQuit bytes := by
  simp only [AsksToQuit, List.splitOn_eq_singleton h]
  simp

/-- What stands before the first newline is certain. -/
theorem append_newline_inj {front front' back back' : List UInt8} (h : newline ∉ front)
    (h' : newline ∉ front') (heq : front ++ newline :: back = front' ++ newline :: back') :
    front = front' ∧ back = back' := by
  have hlines := congrArg (List.splitOn newline) heq
  rw [List.splitOn_append_cons_self_of_not_mem h, List.splitOn_append_cons_self_of_not_mem h']
    at hlines
  injection hlines with hfront _
  subst hfront
  exact ⟨rfl, List.cons_inj_right newline |>.mp (List.append_cancel_left heq)⟩

/-- What stands before the first newline begins with all bytes that have none. -/
theorem exists_of_append_eq_append_newline {xs ys front back : List UInt8} (hxs : newline ∉ xs)
    (h : xs ++ ys = front ++ newline :: back) :
    ∃ more, front = xs ++ more ∧ ys = more ++ newline :: back := by
  rcases List.append_eq_append_iff.mp h with ⟨more, rfl, rfl⟩ | ⟨more, rfl, hback⟩
  · exact ⟨more, rfl, rfl⟩
  · cases more with
    | nil => exact ⟨[], by simp, hback.symm⟩
    | cons b more =>
      injection hback with hb _
      exact absurd (by simp [hb]) hxs

/-- A buffer without a newline. -/
theorem not_mem_of_dropWhile_eq_nil {bytes : List UInt8}
    (h : bytes.dropWhile (· ≠ newline) = []) : newline ∉ bytes := by
  intro hmem
  simpa using List.dropWhile_eq_nil_iff.mp h _ hmem

/-- A buffer with a newline, cut there. -/
theorem eq_append_of_dropWhile_eq_cons {bytes rest : List UInt8} {b : UInt8}
    (h : bytes.dropWhile (· ≠ newline) = b :: rest) :
    b = newline ∧ newline ∉ bytes.takeWhile (· ≠ newline) ∧
      bytes = bytes.takeWhile (· ≠ newline) ++ newline :: rest := by
  have hb : b = newline := by
    have hhead := List.head?_dropWhile_not (fun b => decide (b ≠ newline)) bytes
    rw [h] at hhead
    simpa using hhead
  refine ⟨hb, fun hmem => by simpa using List.mem_takeWhile_imp hmem, ?_⟩
  rw [hb] at h
  rw [← h, List.takeWhile_append_dropWhile]

/-! ## One line of the channel -/

/-- The bytes of a channel that are still to be used. -/
def ahead (c : Channel) : List UInt8 := c.buffered ++ arrived c.reads

/-- A line ends with the first newline, and the channel goes on behind it to the same end. -/
theorem readLine_of_newline {line buffered front back : List UInt8} {reads : List ChannelRead}
    (hfront : newline ∉ front) (h : buffered ++ arrived reads = front ++ newline :: back) :
    ∃ rest, readLine line buffered reads = .ok (line ++ front ++ [newline], rest) ∧
      ahead rest = back ∧ breakReason? rest.reads = breakReason? reads := by
  fun_induction readLine line buffered reads generalizing front with
  | case1 line buffered reads b tail hdrop =>
    obtain ⟨rfl, hbefore, hsplit⟩ := eq_append_of_dropWhile_eq_cons hdrop
    rw [hsplit, List.append_assoc, List.cons_append] at h
    obtain ⟨rfl, rfl⟩ := append_newline_inj hbefore hfront h
    exact ⟨_, rfl, rfl, rfl⟩
  | case2 line buffered hdrop =>
    have hnone := not_mem_of_dropWhile_eq_nil hdrop
    exact absurd (by simpa [arrived] using congrArg (newline ∈ ·) h) hnone
  | case3 line buffered reads hdrop ih =>
    obtain ⟨more, rfl, hmore⟩ := exists_of_append_eq_append_newline
      (not_mem_of_dropWhile_eq_nil hdrop) h
    obtain ⟨rest, hread, hrest⟩ := ih (fun hmem => hfront (by simp [hmem])) hmore
    exact ⟨rest, by simpa using hread, hrest⟩
  | case4 line buffered reason reads hdrop =>
    have hnone := not_mem_of_dropWhile_eq_nil hdrop
    exact absurd (by simpa [arrived] using congrArg (newline ∈ ·) h) hnone
  | case5 line buffered data reads hdrop ih =>
    obtain ⟨more, rfl, hmore⟩ := exists_of_append_eq_append_newline
      (not_mem_of_dropWhile_eq_nil hdrop) h
    obtain ⟨rest, hread, hrest⟩ := ih (fun hmem => hfront (by simp [hmem])) hmore
    exact ⟨rest, by simpa using hread, hrest⟩

/-- Without a newline the line is all that arrives, unless the channel breaks. -/
theorem readLine_of_not_mem {line buffered : List UInt8} {reads : List ChannelRead}
    (h : newline ∉ buffered ++ arrived reads) :
    readLine line buffered reads =
      match breakReason? reads with
      | some reason => .error reason
      | none => .ok (line ++ (buffered ++ arrived reads), ⟨[], []⟩) := by
  fun_induction readLine line buffered reads with
  | case1 line buffered reads b tail hdrop =>
    obtain ⟨-, -, hsplit⟩ := eq_append_of_dropWhile_eq_cons hdrop
    exact absurd (by rw [hsplit]; simp) h
  | case2 line buffered hdrop => simp [breakReason?, arrived]
  | case3 line buffered reads hdrop ih =>
    simp only [List.mem_append, not_or, arrived] at h
    simpa [breakReason?, arrived] using ih (by simpa using h.2)
  | case4 line buffered reason reads hdrop => rfl
  | case5 line buffered data reads hdrop ih =>
    simp only [List.mem_append, not_or, arrived] at h
    simpa [breakReason?, arrived] using ih (by simpa using h.2)

/-! ## The whole channel -/

/-- The first line ends the watch if it is the command; else the watch goes on behind it. -/
theorem watchFrom_of_newline {c : Channel} {front back : List UInt8} (hfront : newline ∉ front)
    (h : ahead c = front ++ newline :: back) (signal : QuitSignal) :
    ∃ rest, watchFrom c signal =
        (if isQuit (front ++ [newline]) then signal.askToQuit else watchFrom rest signal) ∧
      ahead rest = back ∧ breakReason? rest.reads = breakReason? c.reads := by
  obtain ⟨rest, hread, hrest⟩ : ∃ rest,
      readLine [] c.buffered c.reads = .ok ([] ++ front ++ [newline], rest) ∧
      ahead rest = back ∧ breakReason? rest.reads = breakReason? c.reads :=
    readLine_of_newline hfront h
  refine ⟨rest, ?_, hrest⟩
  rw [watchFrom]
  split
  · simp_all
  · simp_all

/-- A channel that is at its end is reported as closed. -/
theorem watchFrom_nil (signal : QuitSignal) :
    watchFrom ⟨[], []⟩ signal = signal.fail closedTooEarly := by
  have hread : readLine [] [] [] = .ok ([], ⟨[], []⟩) := rfl
  rw [watchFrom]
  split <;> simp_all

/-- A channel without a newline ahead has one more line, or none. -/
theorem watchFrom_of_not_mem {c : Channel} (h : newline ∉ ahead c) (signal : QuitSignal) :
    watchFrom c signal =
      if AsksToQuit (ahead c) (breakReason? c.reads) then signal.askToQuit
      else signal.fail (endMessage (breakReason? c.reads)) := by
  have hread : readLine [] c.buffered c.reads =
      match breakReason? c.reads with
      | some reason => .error reason
      | none => .ok ([] ++ ahead c, ⟨[], []⟩) :=
    readLine_of_not_mem h
  rw [watchFrom]
  cases hbroken : breakReason? c.reads with
  | some reason =>
    rw [hbroken] at hread
    rw [if_neg (by rw [asksToQuit_of_not_mem h]; simp)]
    split <;> simp_all [endMessage]
  | none =>
    rw [hbroken] at hread
    simp only [asksToQuit_of_not_mem h, true_and]
    split
    · simp_all
    · rename_i line rest hline
      rw [hread] at hline
      obtain ⟨rfl, rfl⟩ := Prod.mk.inj (Except.ok.inj hline)
      simp only [List.nil_append, watchFrom_nil, endMessage]
      by_cases hnil : ahead c = []
      · rw [dif_pos hnil, hnil, if_neg not_saysQuit_nil]
      · rw [dif_neg hnil]
        simp only [isQuit_of_not_mem h]

/-- The watcher asks for a clean end if the bytes ahead do, and otherwise reports the end of the
channel. -/
theorem watchFrom_eq (c : Channel) (signal : QuitSignal) :
    watchFrom c signal =
      if AsksToQuit (ahead c) (breakReason? c.reads) then signal.askToQuit
      else signal.fail (endMessage (breakReason? c.reads)) := by
  -- Every line takes bytes, so the induction is on how many are ahead.
  induction hlength : (ahead c).length using Nat.strong_induction_on generalizing c with
  | _ n ih =>
    by_cases h : newline ∈ ahead c
    · obtain ⟨front, back, hahead, hfront⟩ := List.eq_append_cons_of_mem h
      obtain ⟨rest, hwatch, hback, hbroken⟩ := watchFrom_of_newline hfront hahead signal
      have hshorter : (ahead rest).length < n := by
        rw [← hlength, hahead, hback]
        simp
        omega
      have hrest := ih _ hshorter rest rfl
      rw [hback, hbroken] at hrest
      simp only [hwatch, hrest, hahead, asksToQuit_append_newline hfront,
        isQuit_append_newline]
      by_cases hquit : SaysQuit front
      · simp [hquit]
      · simp [hquit]
    · exact watchFrom_of_not_mem h signal

theorem watch_eq (reads : List ChannelRead) :
    watch reads =
      if AsksToQuit (arrived reads) (breakReason? reads) then QuitSignal.askToQuit {}
      else QuitSignal.fail {} (endMessage (breakReason? reads)) :=
  watchFrom_eq ⟨[], reads⟩ {}

theorem endMessage_ne_empty (broken : Option String) : endMessage broken ≠ "" := by
  cases broken with
  | none =>
    rw [endMessage, closedTooEarly]
    decide
  | some reason =>
    intro h
    have hfront := (String.append_eq_empty_iff.mp h).1
    simp at hfront

/-- The watcher's last status is to quit exactly if some line that ends with a newline is the
command, with at most one carriage return before the newline, or if the channel comes to its end
and what stands behind the last newline is the command, with at most one carriage return behind
it. Otherwise it is a failure that says whether the channel was closed too early or broke. To quit
ends the run, and a failure is an error with a code of its own. Nothing of this depends on which
reads bring the bytes or on reads that are interrupted. -/
theorem status_watch (reads : List ChannelRead) :
    ((watch reads).status = .quit ↔ AsksToQuit (arrived reads) (breakReason? reads)) ∧
    (¬ AsksToQuit (arrived reads) (breakReason? reads) →
      (watch reads).status = .fatal (endMessage (breakReason? reads))) ∧
    (watch reads).status.endsRun =
      (if AsksToQuit (arrived reads) (breakReason? reads) then .ok true
      else .error (.fatal .unableToReadFromStandardIn (endMessage (breakReason? reads)))) ∧
    ∀ others, arrived others = arrived reads → breakReason? others = breakReason? reads →
      watch others = watch reads := by
  have hother : ∀ others, arrived others = arrived reads →
      breakReason? others = breakReason? reads → watch others = watch reads := by
    intro others harrived hbroken
    rw [watch_eq, watch_eq, harrived, hbroken]
  by_cases h : AsksToQuit (arrived reads) (breakReason? reads)
  · have hstatus : (watch reads).status = .quit := by
      rw [watch_eq, if_pos h, QuitSignal.status_askToQuit _ rfl]
    refine ⟨iff_of_true hstatus h, fun hnot => absurd h hnot, ?_, hother⟩
    rw [hstatus, if_pos h, ControlStatus.endsRun]
  · have hstatus : (watch reads).status = .fatal (endMessage (breakReason? reads)) := by
      rw [watch_eq, if_neg h, QuitSignal.status_fail _ rfl (endMessage_ne_empty _)]
    refine ⟨iff_of_false (by rw [hstatus]; simp) h, fun _ => hstatus, ?_, hother⟩
    rw [hstatus, if_neg h, ControlStatus.endsRun]

end LiveDetection.Control
