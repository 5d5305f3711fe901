import LiveDetection.Data.OrderedMap
import LiveDetection.Files.Path

/-!
# File trees

The files and directories that a job can see. A place in the tree is the list of names
that leads there from the root. Walking a path goes through directories only, and a part
that leads upwards drops the last name of a place.
-/

namespace LiveDetection

/-- Why an operation on files fails. -/
inductive FileError where
  | notFound
  | alreadyExists
  | notADirectory
  | isADirectory
  | nameTooLong
  | unexpectedNul
deriving DecidableEq, Repr

/-- The wording of a failure. -/
def FileError.message : FileError → String
  | notFound => "No such file or directory (os error 2)"
  | alreadyExists => "File exists (os error 17)"
  | notADirectory => "Not a directory (os error 20)"
  | isADirectory => "Is a directory (os error 21)"
  | nameTooLong => "File name too long (os error 36)"
  | unexpectedNul => "file name contained an unexpected NUL byte"

/-- What can be at a place. -/
inductive FileNode where
  | directory
  | file (content : List UInt8)
deriving DecidableEq, Repr

/-- A place: the names from the root downwards. -/
abbrev Place := List String

/-- Files and directories. -/
structure FileTree where
  /-- What is where. The root itself is not listed. -/
  nodes : OrderedMap Place FileNode := .empty
  /-- Where relative paths start. -/
  workingDirectory : Place := []
deriving DecidableEq

namespace FileTree

/-- How many bytes a name may have. -/
def nameLimit : Nat := 255

/-- What is at a place. -/
def node? (t : FileTree) (place : Place) : Option FileNode :=
  if place = [] then some .directory else t.nodes.get? place

/-- The tree with a node at a place. -/
def put (t : FileTree) (place : Place) (node : FileNode) : FileTree :=
  { t with nodes := t.nodes.insert place node }

/-- The place of a name in a directory, with what is there. -/
def lookup (t : FileTree) (dir : Place) (name : String) :
    Except FileError (Place × Option FileNode) :=
  if nameLimit < name.utf8ByteSize then .error .nameTooLong
  else .ok (dir ++ [name], t.node? (dir ++ [name]))

/-- Go from a directory through one part of a path to the next directory. -/
def enter (t : FileTree) (dir : Place) (part : String) : Except FileError Place := do
  if part = Path.upwards then return dir.dropLast
  match ← t.lookup dir part with
  | (place, some .directory) => return place
  | (_, some (.file _)) => throw .notADirectory
  | (_, none) => throw .notFound

/-- Go through parts of a path. -/
def enterAll (t : FileTree) (p : Path) (parts : List String) : Except FileError Place :=
  parts.foldlM t.enter (if p.absolute then [] else t.workingDirectory)

/-- Check that there is a path, and that no name in it has a character that names cannot have. -/
def checkPath (p : Path) : Except FileError Unit := do
  if p.parts.any (·.toList.contains '\x00') then throw .unexpectedNul
  if p.isEmpty then throw .notFound

/-- The last name of a path, if it does not lead upwards. -/
def lastName? (p : Path) : Option String := p.parts.getLast?.filter (· ≠ Path.upwards)

/-- What a path leads to. -/
def find (t : FileTree) (p : Path) : Except FileError FileNode := do
  checkPath p
  match lastName? p with
  | none =>
    discard (t.enterAll p p.parts)
    return .directory
  | some name =>
    let dir ← t.enterAll p p.parts.dropLast
    match ← t.lookup dir name with
    | (_, some .directory) => return .directory
    | (_, some (.file content)) =>
      if p.ending = .bare then return .file content else throw .notADirectory
    | (_, none) => throw .notFound

/-- Whether a path leads to a directory. -/
def isDirectory (t : FileTree) (p : Path) : Bool :=
  match t.find p with
  | .ok .directory => true
  | _ => false

/-- The content of the file that a path leads to. -/
def read (t : FileTree) (p : Path) : Except FileError (List UInt8) := do
  match ← t.find p with
  | .directory => throw .isADirectory
  | .file content => return content

/-- The content of the file of a name in the nearest of the directories above, the innermost of
which comes first. -/
def readUpwards (t : FileTree) (name : String) : List String → Option (List UInt8)
  | [] =>
    match t.node? [name] with
    | some (.file content) => some content
    | _ => none
  | part :: above =>
    match t.node? ((part :: above).reverse ++ [name]) with
    | some (.file content) => some content
    | _ => t.readUpwards name above

/-- Make the directory that a path names. All directories above it have to be there. -/
def makeDirectory (t : FileTree) (p : Path) : Except FileError FileTree := do
  checkPath p
  match lastName? p, p.ending with
  | some name, .bare | some name, .slash =>
    let dir ← t.enterAll p p.parts.dropLast
    match ← t.lookup dir name with
    | (_, some _) => throw .alreadyExists
    | (place, none) => return t.put place .directory
  | _, _ =>
    discard (t.enterAll p p.parts)
    throw .alreadyExists

/-- The end of making a directory that may be there already. -/
def settle (t : FileTree) (p : Path) (made : Except FileError FileTree) :
    Except FileError Unit × FileTree :=
  match made with
  | .ok u => (.ok (), u)
  | .error e => if t.isDirectory p then (.ok (), t) else (.error e, t)

/-- Make a directory and all that are missing above it. What was made stays, also when a later
step fails. -/
def makeDirectories (t : FileTree) (p : Path) : Except FileError Unit × FileTree :=
  if p.isEmpty then (.ok (), t)
  else
    match t.makeDirectory p with
    | .error .notFound =>
      match _above : p.parent? with
      | none => (.error .notFound, t)
      | some above =>
        match t.makeDirectories above with
        | (.ok (), u) => u.settle p (u.makeDirectory p)
        | failed => failed
    | made => t.settle p made
termination_by p.parts.length
decreasing_by exact Path.length_parts_of_parent? ‹_›

/-- Open the file that a path names for writing at its end. A file that is missing comes into
being without content. -/
def openAppend (t : FileTree) (p : Path) : Except FileError (Place × FileTree) := do
  checkPath p
  match lastName? p, p.ending with
  | some _, .slash =>
    discard (t.enterAll p p.parts.dropLast)
    throw .isADirectory
  | some name, .bare =>
    let dir ← t.enterAll p p.parts.dropLast
    match ← t.lookup dir name with
    | (_, some .directory) => throw .isADirectory
    | (place, some (.file _)) => return (place, t)
    | (place, none) => return (place, t.put place (.file []))
  | _, _ =>
    discard (t.enterAll p p.parts)
    throw .isADirectory

/-- The tree with bytes at the end of a file. -/
def append (t : FileTree) (place : Place) (bytes : List UInt8) : FileTree :=
  match t.node? place with
  | some (.file content) => t.put place (.file (content ++ bytes))
  | _ => t

end FileTree

end LiveDetection
