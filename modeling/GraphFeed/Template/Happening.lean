import GraphFeed.Command
import GraphFeed.Log
import GraphFeed.Template.Field
import GraphFeed.Template.Search

/-!
# What an expansion reports

Every step of an expansion returns its `Happening`s: the live braces it meets, what it has read, run
and put in, and every state of the buffer on the way. The log of an expansion is made from them, and
so is the list of its commands.

A command is reported with the brace that opens its placeholder and with the interior behind that
brace, so that it can be told where both come from.
-/

namespace GraphFeed

open Buffer (Cell)

/-- What happens during an expansion. -/
inductive Happening
  /-- A live brace of one kind is met at a position. -/
  | met (phase : Phase) (index : Nat)
  /-- A brace of data at a position is being guarded. -/
  | blocked (phase : Phase) (index : Nat)
  /-- The interior of a field placeholder is being read. -/
  | reading (expression : Text)
  /-- What the interior says. -/
  | understood (placeholder : Placeholder)
  /-- The command of the placeholder with the given brace and interior is run. -/
  | running (brace : Cell) (interior : List Cell) (command : Text)
  /-- The output of the command. -/
  | answered (output : Output)
  /-- The buffer after an edit. -/
  | edited (buffer : Buffer)
  /-- The buffer at the end of a sweep over fields, or after a command placeholder. -/
  | surveyed (buffer : Buffer)
deriving DecidableEq

/-- Which happenings the log shows. -/
structure Detail where
  /-- Placeholders and commands. -/
  placeholders : Bool
  /-- Marks and guards. -/
  marks : Bool
deriving DecidableEq, Repr

namespace Happening

/-- The log of a happening. -/
def log (detail : Detail) (h : Happening) : List LogRecord :=
  let record (shown : Bool) (message : Text) : List LogRecord :=
    if shown then [⟨.debug, .templates, message⟩] else []
  match h with
  | .met _ _ => []
  | .blocked phase index =>
    let kind : Text := match phase with
      | .fields => "interpolate"
      | .commands => "inline script"
    record detail.marks (.concat ["Tainted ", kind, " blocked at ", Text.ofNat index])
  | .reading expression => record detail.placeholders ("Interpolate: " ++ expression)
  | .understood placeholder =>
    record detail.placeholders ("Interpolate result: " ++ placeholder.describe.literal)
  | .running _ _ command => record detail.placeholders ("Inline script: " ++ command)
  | .answered output =>
    record detail.placeholders ("Stdout: " ++ output.standard.strip)
      ++ record detail.placeholders ("Stderr: " ++ output.errors.strip)
  | .edited _ => []
  | .surveyed buffer => record detail.marks ("Taint status:\n" ++ buffer.render)

/-- The command of a happening that runs one. -/
def command? : Happening → Option Text
  | .running _ _ command => some command
  | _ => none

/-- The brace for which a happening runs a command, and what stands behind it. -/
def call? : Happening → Option (Cell × Option Cell)
  | .running brace interior _ => some (brace, interior.head?)
  | _ => none

/-- There are as many commands as calls. -/
theorem length_commands (trace : List Happening) :
    (trace.filterMap command?).length = (trace.filterMap call?).length := by
  induction trace with
  | nil => rfl
  | cons h trace ih =>
    cases h with
    | running brace interior command => exact congrArg (· + 1) ih
    | _ => exact ih

end Happening

/-- What a sweep or a phase has done: its happenings, the cells or buffer at its end, and the
    failure that ended it, if one did. -/
structure Progress (α : Type) where
  trace : List Happening
  state : α
  error : Option Error

namespace Progress

variable {α : Type}

/-- Puts happenings in front of what follows them. -/
def after (trace : List Happening) (p : Progress α) : Progress α :=
  { p with trace := trace ++ p.trace }

@[simp] theorem trace_after (trace : List Happening) (p : Progress α) :
    (p.after trace).trace = trace ++ p.trace := rfl

@[simp] theorem state_after (trace : List Happening) (p : Progress α) :
    (p.after trace).state = p.state := rfl

@[simp] theorem error_after (trace : List Happening) (p : Progress α) :
    (p.after trace).error = p.error := rfl

/-- The state at the end, or the failure instead. -/
def outcome (p : Progress α) : Except Error α :=
  match p.error with
  | none => .ok p.state
  | some e => .error e

@[simp] theorem outcome_after (trace : List Happening) (p : Progress α) :
    (p.after trace).outcome = p.outcome := rfl

end Progress

end GraphFeed
