import GraphFeed.Run.Plan
import GraphFeed.Template.Expansion
import GraphFeed.Text.Line
import GraphFeed.Value.Json

/-!
# The state of a run

A run counts what it has written and passed over, lists its failures, keeps the answers it may not
print yet, and prints. Everything that is logged goes into one log, that of the connection, so that
its order is kept. Lines printed and log records are kept with the latest first, everything else with
the latest last.

A part of a run is a function from states to `Ending`s: it ends well or by a failure, and the state
afterwards is known in both cases.
-/

namespace GraphFeed.Run

/-- A line of input with its number, which begins at 1. -/
structure Line where
  number : Nat
  text : Text
deriving DecidableEq

/-- A failure that is listed: the line in which it arose, if it arose in one, and its cause. -/
structure Failure where
  line : Option Line
  error : Error

/-- The state of a run. -/
structure State where
  connection : Graph.Connection
  expressions : Nat
  skipped : Nat
  failures : List Failure
  /-- Answers that are printed once the transaction is committed. -/
  pending : List (List Graph.Row)
  printed : List Text
  /-- The commands that have been run. -/
  commands : List Text

namespace State

/-- The state before a run. -/
def start (address : Graph.Address) : State := ⟨.closed address, 0, 0, [], [], [], []⟩

/-- Adds a record to the log. -/
def record (s : State) (r : LogRecord) : State :=
  { s with connection := { s.connection with log := r :: s.connection.log } }

/-- Adds records to the log, the oldest of them first. -/
def recordAll (s : State) (rs : List LogRecord) : State := rs.foldl record s

/-- Logs a message of the run. -/
def note (s : State) (level : Level) (message : Text) : State := s.record ⟨level, .run, message⟩

/-- Logs a message of the run where a condition holds. -/
def noteIf (s : State) (condition : Bool) (level : Level) (message : Text) : State :=
  if condition then s.note level message else s

/-- Prints a line. -/
def print (s : State) (line : Text) : State := { s with printed := line :: s.printed }

/-- Prints rows as a line of JSON. -/
def printRows (s : State) (rows : List Graph.Row) : State := s.print (Value.list rows).json

/-- Lists a failure and logs it. -/
def fail (s : State) (line : Option Line) (e : Error) : State :=
  let place : Text := match line with
    | some line => .concat [" (line ", Text.ofNat line.number, ")"]
    | none => []
  let s := s.note .error (.concat ["Error", place, ": ", e.message])
  { s with failures := s.failures ++ [⟨line, e⟩] }

/-- Lists failures of lines and logs them, in their order. -/
def failAll (s : State) (failures : List (Line × Error)) : State :=
  failures.foldl (fun s d => s.fail (some d.1) d.2) s

/-- What a run has printed. -/
def output (s : State) : Text := s.printed.reverse.flatMap fun line => line ++ [('\n' : CodePoint)]

end State

/-! ## Endings -/

/-- How a part of a run ends, and the state afterwards. -/
abbrev Ending := Except Error Unit × State

/-- A part of a run that ends well. -/
def Ending.well (s : State) : Ending := (.ok (), s)

/-- Goes on unless a failure has ended the part before. -/
def Ending.andThen (r : Ending) (next : State → Ending) : Ending :=
  match r with
  | (.ok _, s) => next s
  | (.error e, s) => (.error e, s)

theorem Ending.andThen_of_ok {r : Ending} {next : State → Ending} (h : r.1 = .ok ()) :
    r.andThen next = next r.2 := by
  obtain ⟨_ | _, s⟩ := r
  · cases h
  · rfl

theorem Ending.andThen_of_error {r : Ending} {next : State → Ending} {e : Error} (h : r.1 = .error e) :
    r.andThen next = r := by
  obtain ⟨_ | _, s⟩ := r
  · rfl
  · cases h

/-- An operation on the connection as a part of a run. -/
def State.onConnection (s : State) (operation : Graph.Connection → Except Error Unit × Graph.Connection) :
    Ending :=
  let (r, c) := operation s.connection
  (r, { s with connection := c })

/-- **What goes on after going on goes on.** -/
theorem Ending.andThen_assoc (r : Ending) (f g : State → Ending) :
    (r.andThen f).andThen g = r.andThen fun s => (f s).andThen g := by
  obtain ⟨r, s⟩ := r
  cases r <;> rfl

end GraphFeed.Run
