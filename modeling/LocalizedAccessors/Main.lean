import LocalizedAccessors.Command.Execution

/-!
# The program

Everything that a command line mentions is read into a file system value, the invocation is run on
that value, and what it changed is written back.
-/

namespace LocalizedAccessors

/-- The variables that a run may look up. -/
def readEnvironment : IO Environment := do
  let mut found : List (String × String) := []
  for name in [Invocation.outputVariable, InputFiles.countVariable] do
    if let some value ← IO.getEnv name then found := (name, value) :: found
  let count := ((found.lookup InputFiles.countVariable).bind InputFiles.parseCount?).getD 0
  for index in [0:count] do
    match ← IO.getEnv (InputFiles.fileVariable index) with
    | some value => found := (InputFiles.fileVariable index, value) :: found
    | none => break
  let pairs := found
  return fun name ↦ pairs.lookup name

/-- The locations that a path passes. -/
def passedLocations (here : Location) : List String → List Location
  | [] => []
  | name :: rest =>
    let next :=
      if name = "" ∨ name = "." then here
      else if name = ".." then here.dropLast
      else here ++ [name]
    next :: passedLocations next rest

/-- The paths that a run may read or write. -/
def mentionedPaths (invocation : Invocation) (environment : Environment) : List String :=
  let inputs :=
    if invocation.inputs = [] then (InputFiles.ofEnvironment environment).toOption.getD []
    else invocation.inputs
  let outputs := match invocation.action with
    | .generate output _ => output.toList
    | .check => []
  invocation.configuration.getD Configuration.defaultPath :: inputs ++ outputs

/-- What is at a location now. The fixtures are taken to be there. -/
def readNode (location : Location) : IO (Option Node) := do
  if let some node := FileSystem.fixtures.lookup location then return some node
  let place := System.mkFilePath ("" :: location)
  if ← place.isDir then return some (.directory {})
  if !(← place.pathExists) then return none
  try
    return some (.file (← IO.FS.readBinFile place).toList {})
  catch _ => return some (.file [] { readable := false })

/-- The part of the file system that some paths pass. -/
def readFiles (paths : List String) : IO FileSystem := do
  let workingDirectory := (← IO.currentDir).components.filter (· ≠ "")
  let mut files : FileSystem := { workingDirectory, nodes := [] }
  let fixed := passedLocations [] workingDirectory
  let passed (path : String) := passedLocations (files.origin path) (FilePath.names path)
  for location in fixed ++ paths.flatMap passed do
    if let some node ← readNode location then files := files.put location node
  return files

/-- Makes one change. -/
def writeNode (location : Location) (node : Node) : IO Unit :=
  let place := System.mkFilePath ("" :: location)
  match node with
  | .directory _ => IO.FS.createDirAll place
  | .file content _ => IO.FS.writeBinFile place ⟨content.toArray⟩

/-- The line that shows a notice. -/
def Notice.line (notice : Notice) : String :=
  let shown : String × Detail → String
    | (name, .text value) => " " ++ name ++ "=" ++ value
    | (name, .number value) => " " ++ name ++ "=" ++ toString value
  notice.level.name ++ ": " ++ notice.message ++ String.join (notice.details.map shown)

/-- Carries out an invocation, and gives the exit status. -/
def execute (invocation : Invocation) (environment : Environment) : IO UInt32 := do
  let files ← readFiles (mentionedPaths invocation environment)
  let ⟨execution, notices⟩ := invocation.run files environment
  if let some least := invocation.shown then
    for notice in Notice.atLeast least notices do IO.eprintln notice.line
  for (location, node) in FileSystem.changes files execution.files do writeNode location node
  IO.print execution.printed
  match execution.outcome with
  | .ok _ => return 0
  | .error failure =>
    IO.eprintln ("Error: " ++ failure.message)
    return 1

end LocalizedAccessors

open LocalizedAccessors

def main (arguments : List String) : IO UInt32 := do
  let environment ← readEnvironment
  match Invocation.parse arguments environment with
  | .ok invocation =>
    try execute invocation environment
    catch fault =>
      IO.eprintln ("Error: " ++ toString fault)
      return 1
  | .error stop =>
    if stop.status = 0 then IO.print stop.message else IO.eprint stop.message
    return UInt32.ofNat stop.status
