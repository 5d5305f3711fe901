/-!
# Paths

The text of a path is a list of parts between slashes. Empty parts and parts of one dot
stand for nothing, but at the end of a path they say that it names a directory.
-/

namespace LiveDetection

/-- What stands behind the last part of a path. -/
inductive PathEnd where
  | bare
  | slash
  | dot
deriving DecidableEq, Repr

/-- A path. -/
structure Path where
  /-- Whether the path starts at the root. -/
  absolute : Bool
  /-- The names on the way; two dots lead upwards. -/
  parts : List String
  ending : PathEnd
deriving DecidableEq, Repr

namespace Path

/-- What lies between the separators of a text. -/
def splitOn (separator : Char) : List Char → List (List Char)
  | [] => [[]]
  | c :: rest =>
    if c = separator then [] :: splitOn separator rest
    else
      match splitOn separator rest with
      | [] => [[c]]
      | first :: others => (c :: first) :: others

/-- The part that leads upwards. -/
def upwards : String := ".."

/-- Whether the last part of a text says that a directory is meant. -/
def endingOf (last : Option String) : PathEnd :=
  if last = some "" then .slash else if last = some "." then .dot else .bare

/-- The path of a text. -/
def ofText (text : String) : Path :=
  if text = "" then ⟨false, [], .bare⟩
  else
    let pieces := (splitOn '/' text.toList).map String.ofList
    ⟨pieces.head? == some "", pieces.filter (fun p => p ≠ "" ∧ p ≠ "."), endingOf pieces.getLast?⟩

/-- The path without any text. -/
def isEmpty (p : Path) : Bool := p == ⟨false, [], .bare⟩

/-- The path without its last part. -/
def parent? (p : Path) : Option Path :=
  if p.parts = [] then none else some ⟨p.absolute, p.parts.dropLast, .bare⟩

/-- The path above a path is shorter. -/
theorem length_parts_of_parent? {p above : Path} (h : p.parent? = some above) :
    above.parts.length < p.parts.length := by
  simp only [parent?] at h
  split at h
  · cases h
  · rename_i hne
    cases h
    have := List.length_pos_iff.mpr hne
    simp only [List.length_dropLast]
    omega

/-- The text of a path with a relative path behind it. -/
def join (base child : String) : String :=
  if base = "" ∨ base.toList.getLast? = some '/' then base ++ child else base ++ "/" ++ child

/-- Whether the text of a path starts at the root. -/
def isAbsoluteText (text : String) : Bool := text.toList.head? == some '/'

end Path

end LiveDetection
