import LiveDetection.Failure
import LiveDetection.Files.Tree
import LiveDetection.Proofs.Data.OrderedMap

/-!
# The content of files

Directories are made where nothing is, so making them changes no file. Opening a file for writing at
its end, and writing there, changes the content of that file only. Which file a path names can be
told from its text alone, as there are no links in a tree.
-/

namespace LiveDetection

namespace Path

/-- The place that a part of a path leads to. -/
def follow (place : Place) (part : String) : Place :=
  if part = upwards then place.dropLast else place ++ [part]

/-- The place that a path names, if relative paths start at a given place. -/
def placeFrom (start : Place) (p : Path) : Place :=
  p.parts.foldl follow (if p.absolute then [] else start)

end Path

/-- The content of a file. -/
def FileNode.content? : FileNode → Option (List UInt8)
  | directory => none
  | file content => some content

namespace FileTree

variable {t u v : FileTree} {place : Place} {p : Path}

/-- The content of the file at a place, if there is a file. -/
def content? (t : FileTree) (place : Place) : Option (List UInt8) :=
  (t.node? place).bind FileNode.content?

theorem node?_put (hplace : place ≠ []) (node : FileNode) (other : Place) :
    (t.put place node).node? other = if place = other then some node else t.node? other := by
  rw [node?, node?, put, OrderedMap.get?_insert]
  by_cases hother : other = []
  · simp [hother, hplace]
  · simp [hother]

theorem content?_put (hplace : place ≠ []) (node : FileNode) (other : Place) :
    (t.put place node).content? other =
      if place = other then node.content? else t.content? other := by
  rw [content?, content?, node?_put hplace]
  split <;> rfl

/-! ## Trees with the same files -/

/-- Two trees have the same files, and relative paths start at the same place. -/
structure Keeps (t u : FileTree) : Prop where
  content?_eq : ∀ place, u.content? place = t.content? place
  workingDirectory_eq : u.workingDirectory = t.workingDirectory

theorem Keeps.refl (t : FileTree) : Keeps t t := ⟨fun _ => rfl, rfl⟩

theorem Keeps.trans (h : Keeps t u) (h' : Keeps u v) : Keeps t v where
  content?_eq place := (h'.content?_eq place).trans (h.content?_eq place)
  workingDirectory_eq := h'.workingDirectory_eq.trans h.workingDirectory_eq

/-- Where nothing is, a directory takes the place of no file. -/
theorem keeps_put_directory (hplace : place ≠ []) (hnone : t.node? place = none) :
    Keeps t (t.put place .directory) where
  content?_eq other := by
    rw [content?_put hplace]
    split
    · next heq => rw [← heq, content?, hnone]; rfl
    · rfl
  workingDirectory_eq := rfl

theorem eq_of_lookup {dir : Place} {name : String} {found : Option FileNode}
    (h : t.lookup dir name = .ok (place, found)) :
    place = dir ++ [name] ∧ t.node? place = found := by
  rw [lookup] at h
  split at h
  · cases h
  · cases h
    exact ⟨rfl, rfl⟩

theorem keeps_makeDirectory (h : t.makeDirectory p = .ok u) : Keeps t u := by
  rw [makeDirectory] at h
  obtain ⟨-, -, h⟩ := bind_eq_ok.mp h
  split at h
  case h_3 =>
    obtain ⟨-, -, h⟩ := bind_eq_ok.mp h
    cases h
  all_goals
    obtain ⟨dir, -, h⟩ := bind_eq_ok.mp h
    obtain ⟨⟨place, found⟩, hlookup, h⟩ := bind_eq_ok.mp h
    obtain ⟨rfl, hfound⟩ := eq_of_lookup hlookup
    cases found with
    | some node => cases h
    | none =>
      cases h
      exact keeps_put_directory (by simp) hfound

theorem keeps_settle {made : Except FileError FileTree} (h : ∀ u, made = .ok u → Keeps t u) :
    Keeps t (t.settle p made).2 := by
  cases made with
  | ok u => exact h u rfl
  | error e =>
    rw [settle]
    split <;> exact .refl t

/-- Whether or not all directories can be made, no file changes. -/
theorem keeps_makeDirectories (t : FileTree) (p : Path) : Keeps t (t.makeDirectories p).2 := by
  fun_induction makeDirectories t p with
  | case1 p hempty => exact .refl t
  | case2 p hempty hmissing hparent => exact .refl t
  | case3 p hempty hmissing above hparent u habove ih =>
    rw [habove] at ih
    exact ih.trans (keeps_settle fun _ => keeps_makeDirectory)
  | case4 p hempty hmissing above hparent hfailed ih => exact ih
  | case5 p hempty hmade => exact keeps_settle fun _ => keeps_makeDirectory

/-! ## Where a path leads -/

theorem follow_of_enter {dir : Place} {part : String} (h : t.enter dir part = .ok place) :
    Path.follow dir part = place := by
  rw [enter] at h
  rw [Path.follow]
  split at h
  · cases h
    rw [if_pos ‹_›]
  · rw [if_neg ‹_›]
    obtain ⟨⟨below, found⟩, hlookup, h⟩ := bind_eq_ok.mp h
    obtain ⟨rfl, -⟩ := eq_of_lookup hlookup
    rcases found with _ | _ | _ <;> cases h
    rfl

theorem foldl_follow_of_foldlM {parts : List String} {start : Place}
    (h : parts.foldlM t.enter start = .ok place) : parts.foldl Path.follow start = place := by
  induction parts generalizing start with
  | nil =>
    cases h
    rfl
  | cons part rest ih =>
    rw [List.foldlM_cons] at h
    obtain ⟨dir, hdir, h⟩ := bind_eq_ok.mp h
    rw [List.foldl_cons, follow_of_enter hdir]
    exact ih h

/-- A name behind the directories that a path goes through is at the place that the path names. -/
theorem placeFrom_of_enterAll {dir : Place} {name : String} (hname : lastName? p = some name)
    (h : t.enterAll p p.parts.dropLast = .ok dir) :
    p.placeFrom t.workingDirectory = dir ++ [name] := by
  obtain ⟨hlast, hdown⟩ := Option.filter_eq_some_iff.mp hname
  obtain ⟨front, hparts⟩ := List.getLast?_eq_some_iff.mp hlast
  rw [enterAll, hparts, List.dropLast_concat] at h
  rw [Path.placeFrom, hparts, List.foldl_append, foldl_follow_of_foldlM h]
  have hname : name ≠ Path.upwards := by simpa using hdown
  rw [List.foldl_cons, List.foldl_nil, Path.follow, if_neg hname]

/-- A file was opened for writing at its end: it is there, and no other file has changed. -/
structure OpensAt (t : FileTree) (place : Place) (u : FileTree) : Prop where
  ne_nil : place ≠ []
  content?_eq : u.content? place = some ((t.content? place).getD [])
  other_eq : ∀ other, place ≠ other → u.content? other = t.content? other
  workingDirectory_eq : u.workingDirectory = t.workingDirectory

theorem OpensAt.of_keeps (h : OpensAt u place v) (hkeeps : Keeps t u) : OpensAt t place v where
  ne_nil := h.ne_nil
  content?_eq := by rw [h.content?_eq, hkeeps.content?_eq]
  other_eq other hother := (h.other_eq other hother).trans (hkeeps.content?_eq other)
  workingDirectory_eq := h.workingDirectory_eq.trans hkeeps.workingDirectory_eq

theorem opensAt_openAppend (h : t.openAppend p = .ok (place, u)) :
    place = p.placeFrom t.workingDirectory ∧ OpensAt t place u := by
  rw [openAppend] at h
  obtain ⟨-, -, h⟩ := bind_eq_ok.mp h
  split at h
  case h_1 =>
    obtain ⟨-, -, h⟩ := bind_eq_ok.mp h
    cases h
  case h_3 =>
    obtain ⟨-, -, h⟩ := bind_eq_ok.mp h
    cases h
  case h_2 name hname hend =>
    obtain ⟨dir, hdir, h⟩ := bind_eq_ok.mp h
    obtain ⟨⟨at', found⟩, hlookup, h⟩ := bind_eq_ok.mp h
    obtain ⟨rfl, hfound⟩ := eq_of_lookup hlookup
    have hne : dir ++ [name] ≠ [] := by simp
    rw [placeFrom_of_enterAll hname hdir]
    rcases found with _ | _ | content
    · cases h
      have hnone : t.content? (dir ++ [name]) = none := by rw [content?, hfound]; rfl
      refine ⟨rfl, hne, ?_, ?_, rfl⟩
      · rw [content?_put hne, if_pos rfl, hnone]
        rfl
      · intro other hother
        rw [content?_put hne, if_neg hother]
    · cases h
    · cases h
      have hsome : t.content? (dir ++ [name]) = some content := by rw [content?, hfound]; rfl
      exact ⟨rfl, hne, by rw [hsome]; rfl, fun _ _ => rfl, rfl⟩

theorem node?_of_content? {content : List UInt8} (h : t.content? place = some content) :
    t.node? place = some (.file content) := by
  obtain ⟨_ | found, hnode, hfound⟩ := Option.bind_eq_some_iff.mp h
  · cases hfound
  · cases hfound
    exact hnode

/-- Bytes go behind the content of one file. -/
theorem content?_append {content : List UInt8} (hplace : place ≠ [])
    (h : t.content? place = some content) (bytes : List UInt8) (other : Place) :
    (t.append place bytes).content? other =
      if place = other then some (content ++ bytes) else t.content? other := by
  rw [append, node?_of_content? h]
  exact content?_put hplace _ other

@[simp] theorem workingDirectory_append (t : FileTree) (place : Place) (bytes : List UInt8) :
    (t.append place bytes).workingDirectory = t.workingDirectory := by
  rw [append]
  split <;> rfl

end FileTree

end LiveDetection
