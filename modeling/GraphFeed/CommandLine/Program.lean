import GraphFeed.CommandLine.Request
import GraphFeed.Instruction.Parsing
import GraphFeed.Run.Basic
import GraphFeed.Settings.Load
import GraphFeed.Shell.Runner
import GraphFeed.Yaml.Document

/-!
# The program

`start` is the whole program: from a command line and what it meets, to a status, the standard output
and the error output. The status is 0 where all went well, 1 where something failed, and 2 where the
command line was refused.

The log goes to the error output, the debug records only if the command line asks for them. What has no
encoding is shown there by its number.

A run is told what parses instructions and runs commands, and settings what loads their file. Here they
are given those that are built in: `Parser.ofLexemes`, `Shell.runner` and `Yaml.read`.
-/

namespace GraphFeed.CommandLine

/-! ## 1. Surroundings -/

/-- What the program meets. -/
structure World where
  server : Graph.Server
  files : FileTree
  /-- The number of processors, if it can be told. -/
  processors : Option Nat
  environment : Environment
  /-- The text of the standard input, if that is no terminal. -/
  input : Option Text
  /-- The time that a run takes, in seconds with two places. -/
  elapsed : Text

/-- How the program ends. -/
structure Answer where
  status : Nat
  output : Text
  errors : Text
  /-- The calls of the database, the latest first. -/
  calls : List Graph.Call

/-- The name and the version of the program. -/
def versionLine : Text := "neopipe 0.1.0\n"

/-- How the program is used. -/
def usageLine : Text := "usage: neopipe [options] [instruction ...]\n"

/-- The options of the program, a line for each. -/
def helpText : Text :=
  usageLine ++ "\noptions:\n" ++ Flag.all.flatMap fun f =>
    Text.concat ["  ", f.label, if f.takesValue then " VALUE" else "", "\n"]

/-! ## 2. The log -/

/-- A text as the error output shows it. -/
def showUnencodable (t : Text) : Text :=
  t.flatMap fun c => if c.isSurrogate then Text.ofString "\\u" ++ Text.hex 4 c.val else [c]

/-- The records that are shown. -/
def isShown (isVerbose : Bool) (r : LogRecord) : Bool := isVerbose || r.level != .debug

/-- The lines of the log, the records being given with the latest first. -/
def shownLog (isVerbose : Bool) (log : List LogRecord) : Text :=
  (log.reverse.filter (isShown isVerbose)).flatMap fun r =>
    showUnencodable r.line ++ [('\n' : CodePoint)]

/-! ## 3. Runs -/

/-- What the program logs at its end if not all went well. -/
def closingRecord? (r : Run.Ending) : Option LogRecord :=
  match r with
  | (.error e, _) => some ⟨.error, .commandLine, "Error running neopipe: " ++ e.message⟩
  | (.ok _, s) =>
    if s.isFailed then
      some ⟨.error, .commandLine, Text.ofNat s.failures.length ++ " expression(s) failed"⟩
    else none

/-- The run that a request asks for. Failures of the settings are failures of the run. -/
def runRequest (w : World) (r : Request) : Run.Ending :=
  let nowhere : Run.State := .start ⟨.null, .null, .null, .null⟩
  match Settings.build Yaml.read w.processors w.files r.settingsFile w.environment r.layer with
  | .error e => (.error e, nowhere)
  | .ok settings =>
    match Plan.ofSettings settings ⟨w.processors, w.environment.get?⟩ with
    | .error e => (.error e, nowhere)
    | .ok plan =>
      let lines := w.input.map fun t => Text.lines (Text.unifyNewlines t)
      let surroundings : Run.Surroundings := {
        server := w.server
        parser := .ofLexemes
        runner := fun _ =>
          Shell.runner (settings .shell) (settings .execTimeout) w.environment w.files
        orders := fun _ => List.range (lines.getD []).length
        elapsed := w.elapsed }
      Run.run surroundings plan r.template lines

/-- The answer to a request. -/
def answerRequest (w : World) (r : Request) : Answer :=
  let (result, s) := runRequest w r
  let closing := closingRecord? (result, s)
  { status := if closing.isSome then 1 else 0
    output := s.output
    errors := shownLog r.isVerbose (closing.toList ++ s.connection.log)
    calls := s.connection.calls }

/-- The program. -/
def start (w : World) (arguments : List Text) : Answer :=
  match read arguments with
  | .ok request => answerRequest w request
  | .error .help => ⟨0, helpText, [], []⟩
  | .error .version => ⟨0, versionLine, [], []⟩
  | .error (.fault fault) =>
    ⟨2, [], .concat [usageLine, "neopipe: error: ", showUnencodable fault.message, "\n"], []⟩

end GraphFeed.CommandLine
