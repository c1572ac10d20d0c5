import GraphFeed.Instruction.Reading
import GraphFeed.Run.State
import GraphFeed.Statement.Basic

/-!
# Runs

A run expands a template against every line of input and writes the instructions to the database;
without lines it writes the template itself. Lines are expanded batch by batch; all else is done in
the order of the lines.

In one transaction all statements are written or none: after the first failure no statement is sent
any more, the lines that follow are only checked, and the transaction is taken back. Without a
transaction each statement stands for itself.

Reported failures (`Error.isReported`) are listed in the result. A fault in the expansion of a line
is listed too, after the other lines of the batch; any other fault ends the run, and no result is
returned. The connection is closed in either case, and if that fails, its failure is how the run
ends.
-/

namespace GraphFeed.Run

open GraphFeed.Graph (Server Row)

/-! ## 1. Surroundings -/

/-- What a run meets: the database, what parses its instructions and answers its commands, in which
    order workers finish, and the time it has taken, in seconds with two places. -/
structure Surroundings where
  server : Server
  parser : Parser
  /-- What answers the commands of the line with a number. -/
  runner : Nat → Runner
  /-- For the n-th batch of lines, the order in which its lines finish in a pool. -/
  orders : Nat → List Nat
  elapsed : Text

/-! ## 2. Expansions -/

/-- A line, if there is one, and its instruction or the reported failure to expand it. -/
structure Expanded where
  line : Option Line
  instruction : Except Error Text

/-- The expansion of a template against a line, as far as the marks of the plan allow it. -/
def expansion (w : Surroundings) (p : Plan) (template : Text) (line : Line) : Expansion :=
  match p.splitter with
  | .ok s => expandLine s (w.runner line.number) template line.text
  | .error odd => expandLineOddly odd (w.runner line.number) template line.text

/-- Expands the template against a line. A fault is a failure of the work itself. -/
def expandOne (w : Surroundings) (p : Plan) (template : Text) (line : Line) :
    Except Error Expanded :=
  match (expansion w p template line).result with
  | .ok instruction => .ok ⟨some line, .ok instruction⟩
  | .error e => if e.isReported then .ok ⟨some line, .error e⟩ else .error e

/-- The log of the expansion of a line. -/
def expansionLog (w : Surroundings) (p : Plan) (template : Text) (line : Line) : List LogRecord :=
  (expansion w p template line).log ⟨p.isAbove 2, p.isAbove 3⟩

/-- The commands that were run for what has happened in a batch. -/
def commandsOf (w : Surroundings) (p : Plan) (template : Text) :
    Batch.Event Line Expanded Error → List Text
  | .ran line => (expansion w p template line).commands
  | _ => []

/-! ## 3. One instruction -/

/-- A statement as the log shows it. -/
def statementNotice (s : Statement) : Text :=
  .concat ["Cypher:\n", s.query, "\nParameters: ", (Value.ofParameters s.parameters).literal]

/-- Counts an answer, and prints its rows or keeps them until the transaction is committed. -/
def State.answer (p : Plan) (rows : List Row) (s : State) : State :=
  let s := { s with expressions := s.expressions + 1 }
  if p.output = .json then
    if p.transactional then { s with pending := s.pending ++ [rows] } else s.printRows rows
  else s

/-- Sends a statement to the database. -/
def post (w : Surroundings) (p : Plan) (statement : Statement) (s : State) : Ending :=
  let (r, c) := s.connection.run w.server statement.query statement.parameters
  let s := { s with connection := c }
  match r with
  | .error e => (.error e, s)
  | .ok rows => .well (s.answer p rows)

/-- Handles a statement: it is sent, unless the transaction has failed already. -/
def send (w : Surroundings) (p : Plan) (statement : Statement) (s : State) : Ending :=
  if p.simulated then
    .well { s.note .info (statementNotice statement) with expressions := s.expressions + 1 }
  else
    let s := s.noteIf (p.isAbove 1) .debug (statementNotice statement)
    if p.transactional && !s.failures.isEmpty then .well s else post w p statement s

/-- Reads an instruction and sends its statement. -/
def write (w : Surroundings) (p : Plan) (t : Text) (s : State) : Ending :=
  match Instruction.read w.parser t with
  | .error e => (.error e, s)
  | .ok instruction =>
    match Statement.ofInstruction p.keepBlank instruction with
    | none => .well { s.record instruction.skipNotice with skipped := s.skipped + 1 }
    | some statement => send w p statement s

/-- Lists the reported failure by which a part has ended, if it has ended by one. -/
def Ending.listing (line : Option Line) (r : Ending) : Ending :=
  match r with
  | (.error e, s) => if e.isReported then .well (s.fail line e) else (.error e, s)
  | r => r

/-- Shows a line that is handled. -/
def State.showLine (p : Plan) (line : Option Line) (s : State) : State :=
  match line with
  | none => s
  | some line =>
    let s := if p.output = .pipe then s.print line.text else s
    s.noteIf (p.isAbove 0) .debug ("> " ++ line.text)

/-- Handles an expansion. -/
def handle (w : Surroundings) (p : Plan) (x : Expanded) (s : State) : Ending :=
  let s := s.showLine p x.line
  match x.instruction with
  | .error e => .well (s.fail x.line e)
  | .ok instruction =>
    let s := if p.output = .interpolated then s.print instruction else s
    (write w p instruction s).listing x.line

/-- Handles expansions in order. -/
def handleAll (w : Surroundings) (p : Plan) : List Expanded → State → Ending
  | [], s => .well s
  | x :: rest, s => (handle w p x s).andThen (handleAll w p rest)

/-! ## 4. Lines -/

/-- The lines with their numbers and without their line ends. -/
def number (lines : List Text) : List Line :=
  lines.zipIdx.map fun (line, i) => ⟨i + 1, line.stripLineEnd⟩

/-- Expands the n-th batch of lines and handles the expansions, and then lists the faults. -/
def workOff (w : Surroundings) (p : Plan) (template : Text) (n : Nat) (batch : List Line)
    (s : State) : Ending :=
  let run := p.batches.process (expandOne w p template) (fun _ => w.orders n) batch
  let s := s.recordAll (run.history.flatMap
    (Batch.Event.log p.batches.strategy.source (expansionLog w p template) Error.message))
  let s := { s with commands := s.commands ++ run.history.flatMap (commandsOf w p template) }
  match run.report with
  | .error e => (.error e, s)
  | .ok report =>
    (handleAll w p report.results s).andThen fun s => .well (s.failAll report.errors)

/-- Works off batches of lines from number `n` on. -/
def workOffAll (w : Surroundings) (p : Plan) (template : Text) (n : Nat) :
    List (List Line) → State → Ending
  | [], s => .well s
  | batch :: rest, s => (workOff w p template n batch s).andThen (workOffAll w p template (n + 1) rest)

/-- The batches that lines are cut into. Without a limit they are one, and with a limit of zero
    there are none. -/
def cut (limit : Option Nat) (lines : List Line) : List (List Line) :=
  match limit with
  | some 0 => []
  | some limit => Batch.chunks limit lines
  | none => if lines.isEmpty then [] else [lines]

/-- Works off all lines. -/
def processLines (w : Surroundings) (p : Plan) (template : Text) (lines : List Text) (s : State) :
    Ending :=
  match p.lineLimit with
  | .error e => (.error e, s)
  | .ok limit => workOffAll w p template 0 (cut limit (number lines)) s

/-! ## 5. Beginning and end -/

/-- Whether the run writes in a transaction of the database. -/
def usesTransaction (p : Plan) : Bool := p.transactional && !p.simulated

/-- Opens the connection, and the transaction if there is to be one. -/
def openGraph (w : Surroundings) (p : Plan) (s : State) : Ending :=
  if p.simulated then .well s
  else
    let s := s.noteIf (p.isAbove 0) .debug
      ("Connecting to Neo4j @ " ++ s.connection.address.uri.shown)
    (s.onConnection fun c => c.connect w.server).andThen fun s =>
      if p.transactional then s.onConnection fun c => c.begin w.server else .well s

/-- Takes the transaction back. -/
def abort (w : Surroundings) (p : Plan) (s : State) : State :=
  if usesTransaction p then
    let s := s.note .error "Rolling back: no changes were committed"
    { s with connection := s.connection.rollback w.server }
  else s

/-- Sends a query outside of the transaction, and prints its rows where they are wanted. -/
def postAlone (w : Surroundings) (p : Plan) (query : Value) (s : State) : Ending :=
  let (r, c) := s.connection.execute w.server query []
  let s := { s with connection := c }
  match r with
  | .error e => (.error e, s)
  | .ok rows => .well (if p.showResults || p.output = .json then s.printRows rows else s)

/-- Logs the query at the end where it is to be logged. For that it must be a text. -/
def logEndQuery (p : Plan) (query : Value) (s : State) : Ending :=
  if p.isAbove 1 || p.simulated then
    match query with
    | .text t => .well (s.note .debug ("End query:\n" ++ t.strip))
    | v => (.error (.noOperation v.kind "strip"), s)
  else .well s

/-- Runs the query at the end. -/
def runEndQuery (w : Surroundings) (p : Plan) (query : Value) (s : State) : Ending :=
  let s := s.noteIf (p.isAbove 0) .debug "Executing end query."
  (logEndQuery p query s).andThen fun s => if p.simulated then .well s else postAlone w p query s

/-- Logs what the run has done. -/
def summarize (w : Surroundings) (p : Plan) (s : State) : State :=
  let done : Text := if p.simulated then " expressions simulated (" else
    " expressions inserted into Neo4j ("
  let s := s.note .info (.concat [Text.ofNat s.expressions, done, w.elapsed, " sec)."])
  s.noteIf (s.skipped != 0) .info
    (.concat [Text.ofNat s.skipped, " expressions skipped because of an empty id."])

/-- Prints the answers that were kept. -/
def printPending (s : State) : State :=
  { s.pending.foldl State.printRows s with pending := [] }

/-- Commits the transaction, prints what was kept and runs the query at the end. -/
def finish (w : Surroundings) (p : Plan) (s : State) : Ending :=
  let committed := if usesTransaction p then s.onConnection fun c => c.commit w.server
    else .well s
  committed.andThen fun s =>
    let s := printPending (summarize w p s)
    match p.endQuery with
    | some query => runEndQuery w p query s
    | none => .well s

/-! ## 6. The whole run -/

/-- Writes the template itself, or the lines expanded with it. -/
def feed (w : Surroundings) (p : Plan) (template : Text) (lines : Option (List Text)) (s : State) :
    Ending :=
  match lines with
  | none => if template.isEmpty then .well s else handle w p ⟨none, .ok template⟩ s
  | some lines =>
    if template.isEmpty then
      .well (s.note .warning "No instruction given; input lines are ignored")
    else
      let use : Text := if p.transactional then "Using" else "Not using"
      let s := s.noteIf (p.isAbove 0) .debug
        (.concat ["Collecting input from stdin. ", use, " transaction."])
      processLines w p template lines s

/-- What a run does between its first and its last log record, before reported failures are
    listed. -/
def body (w : Surroundings) (p : Plan) (template : Text) (lines : Option (List Text)) (s : State) :
    Ending :=
  (openGraph w p s).andThen fun s =>
    (feed w p template lines s).andThen fun s =>
      if s.failures.isEmpty then finish w p s else .well (abort w p s)

/-- Lists a reported failure that has ended the run, and takes the transaction back. -/
def recover (w : Surroundings) (p : Plan) (r : Ending) : Ending :=
  match r with
  | (.ok _, s) => .well s
  | (.error e, s) =>
    if e.isReported then
      let s := s.note .error ("Error(s): " ++ e.message)
      let s := s.note .warning
        "In the case of dubious 'transaction' errors, check that the database is running and that connection details are correct."
      .well (abort w p { s with failures := s.failures ++ [⟨none, e⟩] })
    else (.error e, s)

/-- Closes the connection whatever has happened. If that fails, its failure is the one that
    counts. -/
def closing (w : Surroundings) (p : Plan) (r : Ending) : Ending :=
  if p.simulated then r
  else
    match r.2.onConnection fun c => c.close w.server with
    | (.error e, s) => (.error e, s)
    | (.ok _, s) => (r.1, s)

/-- Runs a plan with a template, against the lines of input if there are any. -/
def run (w : Surroundings) (p : Plan) (template : Text) (lines : Option (List Text)) : Ending :=
  let s := State.start p.address
  let s := s.noteIf p.simulated .info "Simulation starting - will not commit to Neo4j"
  match p.checkVerbosity with
  | .error e => (.error e, s)
  | .ok _ =>
    let source : Text := if lines.isNone then "command-line argument" else "stdin"
    let s := s.noteIf (p.isAbove 0) .debug
      (.concat ["Input: ", source, ". Output: ", p.output.name, "."])
    closing w p (recover w p (body w p template lines s))

/-- The run has failures. -/
def State.isFailed (s : State) : Bool := !s.failures.isEmpty

end GraphFeed.Run
