import LiveDetection.Cli.Reach

/-!
# The executable

Gathers a machine from the system, runs the program on it, and puts what the program wrote
into place. The motion component is built in under a library name of its own. No decoder
programs are at hand, so the control channel is never polled.
-/

namespace LiveDetection.Executable

/-- A system without programs. -/
structure NoPrograms where

instance : Launcher NoPrograms where
  launch _ _ system := (none, system)

/-- The library name of the built-in component. -/
def builtInLibrary : String := "builtin:motion"

/-- The path of a place. -/
def pathOf (place : Place) : String := "/" ++ "/".intercalate place

/-- The tree with what the system has at a place. -/
def gather (files : FileTree) (place : Place) : IO FileTree := do
  if ← (System.mkFilePath [pathOf place]).isDir then return files.put place .directory
  match ← (IO.FS.readBinFile (pathOf place)).toBaseIO with
  | .ok content => return files.put place (.file content.toList)
  | .error _ => return files

/-- The environment with a variable of the system, if it is set there. -/
def gatherVariable (e : Environment) (name : String) : IO Environment := do
  match ← IO.getEnv name with
  | some value => return e.set name value
  | none => return e

/-- The names that the environment files of a tree mention. -/
def namesIn (files : FileTree) : List String :=
  files.nodes.entries.flatMap fun entry =>
    match entry.1.getLast? == some Cli.environmentFile, entry.2 with
    | true, .file content => Cli.mentionedNames ((String.fromUTF8? ⟨content.toArray⟩).getD "")
    | _, _ => []

/-- A machine that knows what the program may look at. -/
def gatherMachine (arguments : List String) : IO (Machine NoPrograms) := do
  let here := (Path.ofText (← IO.currentDir).toString).parts
  let mut files : FileTree := { workingDirectory := here }
  for place in [] :: Cli.placesOf [] here do
    files ← gather (← gather files place) (place ++ [Cli.environmentFile])
  let mut environment : Environment := {}
  for name in Cli.ownVariables ++ namesIn files do
    environment ← gatherVariable environment name
  for _ in ["configuration", "job"] do
    let known : Machine NoPrograms := { outside := { files }, environment, programs := {} }
    for place in Cli.reachedPlaces arguments known do
      files ← gather files place
  return { outside := { files }, environment, motionLibraries := [builtInLibrary], programs := {} }

/-- Put what changed at a place into the system. -/
def putBack (before : FileTree) (place : Place) (node : FileNode) : IO Unit := do
  match before.node? place, node with
  | none, .directory => IO.FS.createDir (pathOf place)
  | none, .file content => appendTo place content
  | some (.file old), .file content => appendTo place (content.drop old.length)
  | _, _ => return ()
where
  /-- Write bytes at the end of a file. -/
  appendTo (place : Place) (bytes : List UInt8) : IO Unit := do
    let handle ← IO.FS.Handle.mk (pathOf place) .append
    handle.write ⟨bytes.toArray⟩

/-- Run the program with arguments and tell its exit code. -/
def run (arguments : List String) : IO UInt32 := do
  let machine ← gatherMachine arguments
  let (verdict, after) := @Cli.runProgram .nano NoPrograms _ arguments machine
  for (place, node) in after.outside.files.nodes.entries do
    putBack machine.outside.files place node
  let output ← IO.getStdout
  output.write ⟨after.outside.output.toArray⟩
  output.flush
  if let some line := verdict.line then IO.eprintln ("ERROR " ++ line)
  return UInt32.ofNat (verdict.exitCode.getD .unexpectedError).number

end LiveDetection.Executable

/-- The executable. -/
def main (arguments : List String) : IO UInt32 := LiveDetection.Executable.run arguments
