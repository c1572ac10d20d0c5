import GraphFeed.Template.Calm

/-!
# Expanding a template against a record

The expansion goes through the cells of a buffer from left to right, in two phases:

* **fields**: sweeps over fields follow each other until one meets no live brace (`settle`). The
  first one puts in the values; those after it guard the live braces of what was put in.
* **commands**: one sweep runs the command of each live command placeholder of the template and
  puts its output in; a command brace that is not of the template gets a guard.

At the end the guards are taken out (`expand`). Where a mark of the record format is no text, there
is an expansion all the same as long as nothing has to be split or joined (`expandLineOddly`).
-/

namespace GraphFeed

open Buffer (Cell)

/-! ## 1. Phases -/

/-- The buffer at the end of a sweep over fields is reported if the sweep has met a brace and was
    not ended by a failure. -/
def Progress.surveying (spare : List Mark) (p : Progress (List Cell)) : List Happening :=
  if p.error.isNone && !p.trace.isEmpty then [.surveyed (.ofCells p.state spare)] else []

/-- Sweeps over fields until a sweep meets no live brace. -/
def settle (filler : Filler) (spare : List Mark) (cells : List Cell) : Progress (List Cell) :=
  let p := sweep .fields filler spare 0 [] cells
  if h : p.error = none ∧ p.trace ≠ [] then
    have := unrest_sweep_lt h.1 h.2
    (settle filler spare p.state).after (p.trace ++ p.surveying spare)
  else p
termination_by Phase.fields.unrest cells

/-- The progress with buffers for cells. -/
def Progress.onBuffer (spare : List Mark) (p : Progress (List Cell)) : Progress Buffer :=
  ⟨p.trace, .ofCells p.state spare, p.error⟩

/-- The phase of fields. -/
def resolveFields (s : Splitter) (record : Record) (b : Buffer) : Progress Buffer :=
  (settle (fieldFiller s record) b.spareMarks b.cells).onBuffer b.spareMarks

/-- The phase of commands. -/
def resolveCommands (runner : Runner) (b : Buffer) : Progress Buffer :=
  (sweep .commands (commandFiller runner) b.spareMarks 0 [] b.cells).onBuffer b.spareMarks

/-! ## 2. The whole expansion -/

/-- The expansion of a template: what happens, and the text or the failure at the end. -/
structure Expansion where
  trace : List Happening
  result : Except Error Text

/-- The expansion that a phase of fields begins: the phase of commands follows unless it has failed, and
    then the guards are taken out. -/
def Expansion.ofFields (runner : Runner) (p : Progress Buffer) : Expansion :=
  match p.error with
  | some e => ⟨p.trace, .error e⟩
  | none =>
    let q := resolveCommands runner p.state
    match q.error with
    | some e => ⟨p.trace ++ q.trace, .error e⟩
    | none => ⟨p.trace ++ q.trace, .ok q.state.cleanup⟩

/-- Expands a template against a record. -/
def expand (s : Splitter) (runner : Runner) (template : Text) (record : Record) : Expansion :=
  .ofFields runner (resolveFields s record (.ofTemplate template))

/-- Splits a line and expands a template against its fields. -/
def expandLine (s : Splitter) (runner : Runner) (template line : Text) : Expansion :=
  match s.split line with
  | .error e => ⟨[], .error e⟩
  | .ok record => expand s runner template record

/-- The phase of fields where the separator is no text. -/
def resolveUnjoined (kind : Value.Kind) (b : Buffer) : Progress Buffer :=
  (settle (unjoinedFiller kind) b.spareMarks b.cells).onBuffer b.spareMarks

/-- Expands a template against a line where a mark is no text. An empty line has no fields without
    being split; there the quote mark does not matter, but the separator does. -/
def expandLineOddly (odd : OddMark) (runner : Runner) (template line : Text) : Expansion :=
  if line.isEmpty then
    match odd.mark with
    | .delimiter => .ofFields runner (resolveUnjoined odd.kind (.ofTemplate template))
    | .quote => expand .standard runner template []
  else ⟨[], .error (.markKind odd.mark odd.kind)⟩

/-- The commands that were run, in order. -/
def Expansion.commands (e : Expansion) : List Text := e.trace.filterMap Happening.command?

/-- The braces for which commands were run, each with what stood behind it, in order. -/
def Expansion.calls (e : Expansion) : List (Cell × Option Cell) := e.trace.filterMap Happening.call?

theorem Expansion.length_commands (e : Expansion) : e.commands.length = e.calls.length :=
  Happening.length_commands e.trace

/-- The log of an expansion, the oldest record first. -/
def Expansion.log (detail : Detail) (e : Expansion) : List LogRecord :=
  e.trace.flatMap (Happening.log detail)

end GraphFeed
