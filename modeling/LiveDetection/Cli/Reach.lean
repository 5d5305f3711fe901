import LiveDetection.Cli.Program

/-!
# What a run reaches

The files and variables that the program may look at, given its arguments. Whoever gathers
a machine from a real system has to gather these and no others. A job names further files,
so what is reached grows once the job configuration has been gathered.
-/

namespace LiveDetection.Cli

/-- The variables that the program reads of its own accord. -/
def ownVariables : List String :=
  ["HOME", "XDG_DATA_HOME", Environment.logVariable, Environment.fallbackLogVariable,
    Environment.runDirectoryVariable, Environment.decoderVariable]

/-- The longest runs of characters of a kind. -/
def runsOf (kind : Char → Bool) : List Char → List (List Char)
  | [] => [[]]
  | c :: rest =>
    match runsOf kind rest with
    | first :: others => if kind c then (c :: first) :: others else [] :: first :: others
    | [] => []

/-- The names that an environment file may assign to or refer to. -/
def mentionedNames (content : String) : List String :=
  let runs := runsOf EnvironmentFile.isNameChar content.toList ++
    runsOf isLetterOrDigit content.toList
  (runs.filter (· ≠ [])).map String.ofList

/-- The places that a path passes on its way, its end included. -/
def placesOf (start : Place) : List String → List Place
  | [] => []
  | part :: parts =>
    let next := if part = Path.upwards then start.dropLast else start ++ [part]
    next :: placesOf next parts

/-- The paths that a job leads to. -/
def jobPaths (config : JobConfig) (e : Environment) : List String :=
  let outlet := match OutletAddress.ofText? config.transport.uri with
    | some (.file path) => [path]
    | _ => []
  config.runDirectory (e.setAll config.component.environment) :: outlet

variable {ℓ : Type}

/-- The paths that the program follows on a machine, as far as the machine knows them. -/
def reachedPaths (arguments : List String) (m : Machine ℓ) : List String :=
  match Request.of arguments with
  | .run options =>
    match JobConfig.load m.outside.files options.jobConfig with
    | .ok config => options.jobConfig :: jobPaths config (takeEnvironmentFile m).environment
    | .error _ => [options.jobConfig]
  | _ => []

/-- The places that the program visits on a machine, as far as the machine knows them. -/
def reachedPlaces (arguments : List String) (m : Machine ℓ) : List Place :=
  (reachedPaths arguments m).flatMap fun text =>
    let p := Path.ofText text
    placesOf (if p.absolute then [] else m.outside.files.workingDirectory) p.parts

end LiveDetection.Cli
