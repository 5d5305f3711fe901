import LiveDetection.Environment
import LiveDetection.Files.Tree
import LiveDetection.Job.Toml

/-!
# Loading job configurations

A configuration is loaded from a file, which has to hold valid text.
-/

namespace LiveDetection.JobConfig

/-- The failure to read a configuration file. -/
def readError (path reason : String) : RunError :=
  .config ("failed to read " ++ path ++ ": " ++ reason)

/-- The settings in a file, if nothing is wrong with them. -/
def load (files : FileTree) (path : String) : Except RunError JobConfig :=
  match files.read (.ofText path) with
  | .error e => .error (readError path e.message)
  | .ok content =>
    match String.fromUTF8? ⟨content.toArray⟩ with
    | some text => parse text
    | none => .error (readError path "stream did not contain valid UTF-8")

theorem exitCode_of_load {files : FileTree} {path : String} {e : RunError}
    (h : load files path = .error e) : e.exitCode = .invalidJobConfig := by
  rw [load] at h
  split at h
  · cases h
    rfl
  · split at h
    · exact exitCode_of_parse h
    · cases h
      rfl

/-- Where the component may keep its files. -/
def runDirectory (c : JobConfig) (e : Environment) : String :=
  c.component.runDirectory.getD e.runDirectory

end LiveDetection.JobConfig
