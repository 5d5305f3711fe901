import LiveDetection.Publish.Outlet
import LiveDetection.Proofs.Files.Content

/-!
# Lines at the end of files

Outlets are opened one after another, each for some messages. `Opens` says what an opening makes of
the files, and behind it messages go to the end of one file or to none. So each file is in the end
what it was at first with the lines behind it that were meant for it, in the order of the steps.
-/

namespace LiveDetection

/-- Messages for the outlet at an address. -/
structure Sending where
  uri : String
  messages : List (String × Message)

namespace Sending

/-- The bytes of the messages as lines. -/
def bytes (s : Sending) : List UInt8 := s.messages.flatMap fun m => lineBytes m.1 m.2

end Sending

/-- The place of the file that an address names, if relative paths start at a given place. -/
def filePlace? (start : Place) (uri : String) : Option Place :=
  (afterScheme? "file://" uri).map fun path => (Path.ofText path).placeFrom start

/-- Steps of which each has opened its outlet, or has failed to. -/
abbrev Done := List (Sending × Except RunError Unit)

/-- What was written to the file at a place, step by step. A step that could not open its outlet has
written nothing. -/
def writtenTo (start place : Place) (done : Done) : List (List UInt8) :=
  (done.filter fun d => d.2.isOk ∧ filePlace? start d.1.uri = some place).map fun d => d.1.bytes

/-- The content of a file with more behind it. A file that is missing comes into being. -/
def extended (content : Option (List UInt8)) (written : List (List UInt8)) :
    Option (List UInt8) :=
  if written = [] then content else some (content.getD [] ++ written.flatten)

theorem writtenTo_append (start place : Place) (front back : Done) :
    writtenTo start place (front ++ back) =
      writtenTo start place front ++ writtenTo start place back := by
  simp [writtenTo]

/-- A step writes nothing to a file that it could not open or that its address does not name. -/
theorem writtenTo_eq_nil {start place : Place} {step : Sending} {answer : Except RunError Unit}
    (h : answer.isOk = false ∨ filePlace? start step.uri ≠ some place) :
    writtenTo start place [(step, answer)] = [] := by
  rcases h with hrefused | hother
  · simp [writtenTo, hrefused]
  · simp [writtenTo, hother]

theorem extended_append (content : Option (List UInt8)) (front back : List (List UInt8)) :
    extended content (front ++ back) = extended (extended content front) back := by
  by_cases hfront : front = []
  · simp [extended, hfront]
  · by_cases hback : back = [] <;> simp [extended, hfront, hback]

theorem ofText?_eq_file_iff {uri path : String} :
    OutletAddress.ofText? uri = some (.file path) ↔ afterScheme? "file://" uri = some path := by
  rw [OutletAddress.ofText?]
  split
  · next h =>
    have hnone : afterScheme? "file://" "stdout" = none := by decide
    simp [h, hnone]
  · cases afterScheme? "file://" uri <;> simp

namespace Outside

/-- Open outlets one after another, each for its messages. -/
def sendEach : List Sending → Outside → Done × Outside
  | [], w => ([], w)
  | step :: rest, w =>
    let later := sendEach rest (w.send step.uri step.messages).2
    ((step, (w.openOutlet step.uri).1) :: later.1, later.2)

/-- What the opening of an outlet makes of the files. -/
inductive Opens (uri : String) (w : Outside) : Except RunError Unit → Outside → Prop
  /-- The file that the address names is open, and it is there. -/
  | file {place : Place} {w' : Outside} (houtlet : w'.outlet = .file place)
    (hplace : filePlace? w.files.workingDirectory uri = some place)
    (h : w.files.OpensAt place w'.files) : Opens uri w (.ok ()) w'
  /-- The address names no file. -/
  | elsewhere {w' : Outside} (houtlet : ∀ place, w'.outlet ≠ .file place)
    (hplace : filePlace? w.files.workingDirectory uri = none)
    (h : w.files.Keeps w'.files) : Opens uri w (.ok ()) w'
  | refused {e : RunError} {w' : Outside} (h : w.files.Keeps w'.files) : Opens uri w (.error e) w'

theorem keeps_makeParents (files : FileTree) (p : Path) : files.Keeps (makeParents files p).2 := by
  rw [makeParents]
  split
  · exact FileTree.keeps_makeDirectories files _
  · exact .refl files

theorem opens_openFile {uri path : String} (huri : afterScheme? "file://" uri = some path)
    (w : Outside) : Opens uri w (w.openFile path).1 (w.openFile path).2 := by
  have hparents := keeps_makeParents w.files (Path.ofText path)
  rw [openFile]
  rcases hmade : makeParents w.files (Path.ofText path) with ⟨_ | _, files⟩
  · rw [hmade] at hparents
    exact .refused hparents
  · rw [hmade] at hparents
    simp only []
    split
    · exact .refused hparents
    · next place files' hopen =>
      obtain ⟨hplace, hopens⟩ := FileTree.opensAt_openAppend hopen
      rw [hparents.workingDirectory_eq] at hplace
      refine .file rfl ?_ (hopens.of_keeps hparents)
      rw [filePlace?, huri, Option.map_some, hplace]

theorem opens_connect {uri peer reason : String} (w : Outside)
    (hplace : filePlace? w.files.workingDirectory uri = none) :
    Opens uri w (w.connect peer reason).1 (w.connect peer reason).2 := by
  rw [connect]
  split
  · exact .elsewhere (by rintro _ ⟨⟩) hplace (.refl w.files)
  · exact .refused (.refl w.files)

theorem opens_openOutlet (uri : String) (w : Outside) :
    Opens uri w (w.openOutlet uri).1 (w.openOutlet uri).2 := by
  rw [openOutlet]
  cases haddress : OutletAddress.ofText? uri with
  | none => exact .refused (.refl w.files)
  | some address =>
    have hplace (hother : ∀ path, address ≠ .file path) :
        filePlace? w.files.workingDirectory uri = none := by
      rw [filePlace?, Option.map_eq_none_iff, Option.eq_none_iff_forall_ne_some]
      intro path hpath
      rw [ofText?_eq_file_iff.mpr hpath] at haddress
      exact hother path (Option.some.inj haddress).symm
    cases address with
    | standardOutput =>
      exact .elsewhere (by rintro _ ⟨⟩) (hplace (by rintro _ ⟨⟩)) (.refl w.files)
    | file path => exact opens_openFile (ofText?_eq_file_iff.mp haddress) w
    | unixSocket path | tcpSocket peer => exact opens_connect w (hplace (by rintro _ ⟨⟩))

/-! ## Messages behind an opening -/

/-- All messages go to the end of the file that is open. -/
theorem content?_publishAll {w : Outside} {place : Place} {content : List UInt8}
    (houtlet : w.outlet = .file place) (hplace : place ≠ [])
    (hcontent : w.files.content? place = some content) (messages : List (String × Message))
    (other : Place) :
    (publishAll messages w).2.files.content? other =
      if place = other then some (content ++ messages.flatMap fun m => lineBytes m.1 m.2)
      else w.files.content? other := by
  induction messages generalizing w content with
  | nil =>
    split
    · next h =>
      rw [← h, List.flatMap_nil, List.append_nil]
      exact hcontent
    · rfl
  | cons m rest ih =>
    have hpublish : Publisher.publish m.1 m.2 w =
        (.ok (), { w with files := w.files.append place (lineBytes m.1 m.2) }) := by
      simp only [Publisher.publish, deliver, houtlet]
    have hline := FileTree.content?_append hplace hcontent (lineBytes m.1 m.2)
    rw [publishAll, hpublish]
    generalize hnext :
      ({ w with files := w.files.append place (lineBytes m.1 m.2) } : Outside) = next
    have hfiles : next.files = w.files.append place (lineBytes m.1 m.2) := hnext ▸ rfl
    rw [← hfiles] at hline
    refine (ih (hnext ▸ houtlet) ((hline place).trans (if_pos rfl))).trans ?_
    rw [hline other, List.flatMap_cons, List.append_assoc]
    split <;> rfl

/-- Without an open file, messages change no file. -/
theorem files_publishAll {w : Outside} (houtlet : ∀ place, w.outlet ≠ .file place)
    (messages : List (String × Message)) : (publishAll messages w).2.files = w.files := by
  have hsame : (publishAll messages w).2.files = w.files ∧
      ∀ place, (publishAll messages w).2.outlet ≠ .file place := by
    refine publishAll_preserves
      (P := fun v : Outside => v.files = w.files ∧ ∀ place, v.outlet ≠ .file place)
      ?_ ⟨rfl, houtlet⟩ messages
    rintro queue message v ⟨hfiles, hother⟩
    simp only [Publisher.publish, deliver]
    split
    · exact ⟨hfiles, hother⟩
    · next place h => exact absurd h (hother place)
    · exact ⟨hfiles, hother⟩
  exact hsame.1

theorem workingDirectory_publishAll (messages : List (String × Message)) (w : Outside) :
    (publishAll messages w).2.files.workingDirectory = w.files.workingDirectory := by
  refine publishAll_preserves
    (P := fun v : Outside => v.files.workingDirectory = w.files.workingDirectory) ?_ rfl messages
  intro queue message v hsame
  simp only [Publisher.publish, deliver]
  split
  · exact hsame
  · exact (FileTree.workingDirectory_append ..).trans hsame
  · exact hsame

/-! ## One step -/

/-- What a step makes of the files, with the answer to the opening of its outlet. -/
structure Extends (w : Outside) (step : Sending) (answer : Except RunError Unit) (w' : Outside) :
    Prop where
  content?_eq : ∀ place, w'.files.content? place = extended (w.files.content? place)
    (writtenTo w.files.workingDirectory place [(step, answer)])
  workingDirectory_eq : w'.files.workingDirectory = w.files.workingDirectory

theorem extends_of_keeps {w w' : Outside} {step : Sending} {answer : Except RunError Unit}
    (h : w.files.Keeps w'.files)
    (hnone : answer.isOk = false ∨ filePlace? w.files.workingDirectory step.uri = none) :
    Extends w step answer w' where
  content?_eq place := by
    have hwritten : writtenTo w.files.workingDirectory place [(step, answer)] = [] :=
      writtenTo_eq_nil (hnone.imp_right fun hother => by simp [hother])
    rw [hwritten, h.content?_eq]
    rfl
  workingDirectory_eq := h.workingDirectory_eq

/-- The file that is open gets the lines of all messages behind what it had. -/
theorem extends_of_opensAt {w opened : Outside} {step : Sending} {place : Place}
    (houtlet : opened.outlet = .file place)
    (hplace : filePlace? w.files.workingDirectory step.uri = some place)
    (h : w.files.OpensAt place opened.files) :
    Extends w step (.ok ()) (publishAll step.messages opened).2 where
  content?_eq other := by
    have hlines := content?_publishAll houtlet h.ne_nil h.content?_eq step.messages other
    rw [hlines]
    by_cases hother : place = other
    · have hwritten : writtenTo w.files.workingDirectory other [(step, .ok ())] = [step.bytes] := by
        simp [writtenTo, hplace, hother, Except.isOk, Except.toBool]
      rw [if_pos hother, hwritten, ← hother]
      simp [extended, Sending.bytes]
    · have hwritten : writtenTo w.files.workingDirectory other [(step, .ok ())] = [] :=
        writtenTo_eq_nil (.inr (by simp [hplace, hother]))
      rw [if_neg hother, hwritten, h.other_eq other hother]
      rfl
  workingDirectory_eq :=
    (workingDirectory_publishAll step.messages opened).trans h.workingDirectory_eq

theorem extends_send (step : Sending) (w : Outside) :
    Extends w step (w.openOutlet step.uri).1 (w.send step.uri step.messages).2 := by
  have hopens := opens_openOutlet step.uri w
  rw [send]
  rcases hopen : w.openOutlet step.uri with ⟨answer, opened⟩
  rw [hopen] at hopens
  cases hopens with
  | file houtlet hplace h => exact extends_of_opensAt houtlet hplace h
  | elsewhere houtlet hplace h =>
    have hfiles := files_publishAll houtlet step.messages
    exact extends_of_keeps (hfiles ▸ h) (.inr hplace)
  | refused h => exact extends_of_keeps h (.inl rfl)

/-! ## All steps -/

theorem extends_sendEach (steps : List Sending) (w : Outside) :
    (∀ place, (w.sendEach steps).2.files.content? place = extended (w.files.content? place)
      (writtenTo w.files.workingDirectory place (w.sendEach steps).1)) ∧
      (w.sendEach steps).2.files.workingDirectory = w.files.workingDirectory := by
  induction steps generalizing w with
  | nil => exact ⟨fun _ => rfl, rfl⟩
  | cons step rest ih =>
    have hstep := extends_send step w
    obtain ⟨hrest, hdirectory⟩ := ih (w.send step.uri step.messages).2
    refine ⟨fun place => ?_, hdirectory.trans hstep.workingDirectory_eq⟩
    have hplace := hrest place
    rw [hstep.workingDirectory_eq, hstep.content?_eq, ← extended_append,
      ← writtenTo_append] at hplace
    exact hplace

/-- Steps that only ever write behind what is there, each to its own file. -/
structure AppendsOnly (w : Outside) (steps : List Sending) : Prop where
  /-- Each file is what it was, and behind it the lines of all messages to it from the steps that
  could open it. -/
  content?_eq : ∀ place, (w.sendEach steps).2.files.content? place =
    extended (w.files.content? place)
      (writtenTo w.files.workingDirectory place (w.sendEach steps).1)
  /-- A step changes no file but its own. -/
  other_eq : ∀ before step after place, steps = before ++ step :: after →
    filePlace? w.files.workingDirectory step.uri ≠ some place →
    ((w.sendEach before).2.send step.uri step.messages).2.files.content? place =
      (w.sendEach before).2.files.content? place
  /-- A step that cannot open its outlet changes no file at all. -/
  refused_eq : ∀ before step after error place, steps = before ++ step :: after →
    ((w.sendEach before).2.openOutlet step.uri).1 = .error error →
    ((w.sendEach before).2.send step.uri step.messages).2.files.content? place =
      (w.sendEach before).2.files.content? place
  /-- An address of an unknown kind cannot be opened. -/
  unsupported : ∀ before step after, steps = before ++ step :: after → step.uri ≠ "stdout" →
    (∀ scheme ∈ ["file://", "unix://", "tcp://"], afterScheme? scheme step.uri = none) →
    ((w.sendEach before).2.openOutlet step.uri).1 =
      .error (.config ("unsupported transport uri: " ++ step.uri))

/-- Whatever files there are at first, and whatever addresses the steps have, all that the steps do
is to append. -/
theorem appendsOnly (w : Outside) (steps : List Sending) : AppendsOnly w steps := by
  refine ⟨(extends_sendEach steps w).1, ?_, ?_, ?_⟩
  · intro before step after place _ hother
    have hstep := extends_send step (w.sendEach before).2
    rw [← (extends_sendEach before w).2] at hother
    rw [hstep.content?_eq, writtenTo_eq_nil (.inr hother)]
    rfl
  · intro before step after error place _ hrefused
    have hstep := extends_send step (w.sendEach before).2
    rw [hstep.content?_eq, writtenTo_eq_nil (.inl (by rw [hrefused]; rfl))]
    rfl
  · intro before step after _ hstdout hschemes
    have hfile := hschemes "file://" (by simp)
    have hunix := hschemes "unix://" (by simp)
    have htcp := hschemes "tcp://" (by simp)
    have hnone : OutletAddress.ofText? step.uri = none := by
      simp [OutletAddress.ofText?, hstdout, hfile, hunix, htcp]
    rw [openOutlet, hnone]

-- Below a file there is no place for another one.
example :
    let steps : List Sending := [⟨"file:///log/a", [("q", .empty)]⟩, ⟨"file:///log/a/b", []⟩,
      ⟨"ftp://a", [("q", .empty)]⟩, ⟨"file:///log/a", [("q", .empty)]⟩]
    let done := sendEach steps {}
    done.1.map (·.2.isOk) = [true, false, false, true] ∧
      done.2.files.content? ["log", "a"] = some (lineBytes "q" .empty ++ lineBytes "q" .empty) := by
  decide +kernel

end Outside

end LiveDetection
