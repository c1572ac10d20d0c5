import GraphFeed.CommandLine.Program

/-!
# The program, run

The outer layer: it collects the arguments, the environment, the settings file and the input, and
writes what `CommandLine.start` answers. No transport to a database is built in, so a run that does not
only simulate fails when it connects.
-/

namespace GraphFeed

/-- A database that cannot be reached. -/
def unreachable : Graph.Server := fun _ _ => .error "no transport to the database"

/-- The variables of the environment that the program looks at. -/
def lookedUp : List String :=
  ["NEO4J_URI", "NEO4J_USER", "NEO4J_PASSWORD", "NEO4J_DATABASE", "HOME", "PATH", "PWD", "USER"]

/-- The variables that are set. -/
def readEnvironment : IO Environment :=
  lookedUp.filterMapM fun name => do
    return (← IO.getEnv name).map fun value => (Text.ofString name, Text.ofString value)

/-- The files among the given paths that are there. -/
def readFiles (paths : List Text) : IO FileTree :=
  paths.filterMapM fun path => do
    try return some (path, Text.ofString (← IO.FS.readFile path.toString))
    catch _ => return none

/-- The number of processors, where the system lists them. -/
def countProcessors : IO (Option Nat) := do
  try
    let listed ← IO.FS.readFile "/proc/cpuinfo"
    return some ((listed.splitOn "\n").countP fun line => line.startsWith "processor")
  catch _ => return none

/-- All that a stream still holds. -/
partial def readAll (stream : IO.FS.Stream) (read : Bytes) : IO Bytes := do
  let chunk ← stream.read 65536
  if chunk.isEmpty then return read else readAll stream (read ++ chunk.toList)

/-- The standard input, unless it is a terminal. -/
def readInput : IO (Option Text) := do
  let stdin ← IO.getStdin
  if ← stdin.isTty then return none
  match Utf8.decode (← readAll stdin []) with
  | .ok t => return some t
  | .error u => throw (IO.userError (Error.undecodable u).message.toString)

/-- The files that a command line may need. -/
def neededFiles (arguments : List Text) : List Text :=
  match CommandLine.read arguments with
  | .ok request => request.settingsFile.toList ++ usualPlaces
  | .error _ => []

end GraphFeed

open GraphFeed in
/-- Runs the program. -/
def main (arguments : List String) : IO UInt32 := do
  let arguments := arguments.map Text.ofString
  let answer := CommandLine.start {
    server := unreachable
    files := ← readFiles (neededFiles arguments)
    processors := ← countProcessors
    environment := ← readEnvironment
    input := ← readInput
    elapsed := "0.00" } arguments
  (← IO.getStdout).putStr answer.output.toString
  (← IO.getStderr).putStr answer.errors.toString
  return answer.status.toUInt32
