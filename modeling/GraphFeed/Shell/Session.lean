import GraphFeed.FileTree
import GraphFeed.Shell.Script

/-!
# The state of a shell

A shell has variables, functions and the status of its last command. Its descriptors lead to
channels: to sinks, which keep what is written, to files, or nowhere. Sinks 0 and 1 are the standard
output and the error output of the whole script, later sinks are pipes and outputs of inner scripts.

Time is a number of microseconds, and passes only by waiting.

Part of the shell that the program is run with (`Shell.Runner`).
-/

namespace GraphFeed.Shell

/-! ## 1. State -/

/-- Where what is written to a descriptor goes. -/
inductive Channel
  | sink (number : Nat)
  | file (path : Text)
  | nowhere
deriving DecidableEq

/-- How a script goes on. -/
inductive Flow
  | going
  /-- Some enclosing loops are left. -/
  | leaving (loops : Nat)
  /-- Some enclosing loops but one are left, and that one goes on. -/
  | renewing (loops : Nat)
  | returning
  | ended
  | killed (signal : Nat)
deriving DecidableEq

/-- The two families of shells. They differ in what `echo` does with backslashes and in how they
    begin their messages. -/
inductive Dialect
  | posix
  | bash
deriving DecidableEq, Repr

/-- The state of a shell. -/
structure Session where
  dialect : Dialect
  name : Text
  arguments : List Text
  bindings : List (Text × Text)
  functions : List (Text × Command)
  /-- The status of the last command. -/
  status : Nat
  /-- The status of the last script whose output was asked for. -/
  outputStatus : Nat
  flow : Flow
  /-- How many loops enclose the command that is carried out. -/
  loops : Nat
  channels : List (Nat × Channel)
  /-- What can still be read from descriptor 0. -/
  input : Text
  sinks : List Text
  files : FileTree
  clock : Nat
  /-- The line of the command that is carried out. -/
  line : Nat
  /-- A command that fails ends the shell. -/
  endsAtFailure : Bool
  /-- A variable without a value is an error. -/
  refusesMissing : Bool

namespace Session

/-- The state before a script. -/
def start (dialect : Dialect) (name : Text) (bindings : List (Text × Text)) (files : FileTree) : Session where
  dialect
  name
  arguments := []
  bindings
  functions := []
  status := 0
  outputStatus := 0
  flow := .going
  loops := 0
  channels := [(1, .sink 0), (2, .sink 1)]
  input := []
  sinks := [[], []]
  files
  clock := 0
  line := 1
  endsAtFailure := false
  refusesMissing := false

/-! ## 2. Values -/

/-- The number of the shell among all processes. -/
def processNumber : Text := "4242"

/-- The value of a variable or of a special name. -/
def value? (s : Session) (name : Text) : Option Text :=
  if name = Text.ofString "?" then some (Text.ofNat s.status)
  else if name = Text.ofString "$" then some processNumber
  else if name = Text.ofString "#" then some (Text.ofNat s.arguments.length)
  else if name = Text.ofString "0" then some s.name
  else if name = Text.ofString "@" ∨ name = Text.ofString "*" then
    if s.arguments.isEmpty then none else some (Text.join " " s.arguments)
  else if name = Text.ofString "-" then
    some ((if s.endsAtFailure then "e" else "" : String) ++
      (if s.refusesMissing then "u" else "" : String) : Text)
  else if name.all CodePoint.isDigit then
    s.arguments[name.foldl (fun n c => 10 * n + c.digit) 0 - 1]?
  else (s.bindings.find? fun v => v.1 = name).map (·.2)

/-- Assigns a value to a variable. -/
def assign (s : Session) (name value : Text) : Session :=
  { s with bindings := (name, value) :: s.bindings.filter fun v => v.1 ≠ name }

/-- Takes a variable away. -/
def unset (s : Session) (name : Text) : Session :=
  { s with bindings := s.bindings.filter fun v => v.1 ≠ name }

/-- Ends a command with a status. -/
def withStatus (s : Session) (status : Nat) : Session := { s with status }

/-! ## 3. Writing -/

/-- The channel of a descriptor. -/
def channel? (s : Session) (descriptor : Nat) : Option Channel :=
  (s.channels.find? fun c => c.1 = descriptor).map (·.2)

/-- Lets a descriptor lead to a channel. -/
def connect (s : Session) (descriptor : Nat) (channel : Channel) : Session :=
  { s with channels := (descriptor, channel) :: s.channels.filter fun c => c.1 ≠ descriptor }

/-- Closes a descriptor. -/
def disconnect (s : Session) (descriptor : Nat) : Session :=
  { s with channels := s.channels.filter fun c => c.1 ≠ descriptor }

/-- Writes to a channel. -/
def writeTo (s : Session) (channel : Channel) (t : Text) : Session :=
  match channel with
  | .nowhere => s
  | .sink n => { s with sinks := s.sinks.modify n (· ++ t) }
  | .file path =>
    match s.files.entry path with
    | .file content => { s with files := s.files.write path (content ++ t) }
    | _ => { s with files := s.files.write path t }

/-- Writes to a descriptor; a closed one takes nothing. -/
def write (s : Session) (descriptor : Nat) (t : Text) : Session :=
  match s.channel? descriptor with
  | some channel => s.writeTo channel t
  | none => s

/-- Writes a message of the shell itself. -/
def report (s : Session) (message : Text) : Session :=
  let place : Text := match s.dialect with
    | .posix => Text.ofNat s.line
    | .bash => "line " ++ Text.ofNat s.line
  s.write 2 (.concat [s.name, ": ", place, ": ", message, "\n"])

/-- Reports an error that ends the command with a status. -/
def fail (s : Session) (status : Nat) (message : Text) : Session :=
  (s.report message).withStatus status

/-- Reports an error that ends the shell. -/
def giveUp (s : Session) (message : Text) : Session :=
  { s.fail 2 message with flow := .ended }

/-! ## 4. Parts -/

/-- The script goes on as usual. -/
def isGoing (s : Session) : Bool := s.flow = .going

/-- What a copy of the shell has done counts for the shell as far as others see it: what it wrote, how
    long it took, its status and whether it killed the shell. -/
def afterCopy (s copy : Session) : Session :=
  { s with
    sinks := copy.sinks
    files := copy.files
    clock := copy.clock
    input := copy.input
    status := copy.status
    flow := match copy.flow with
      | .killed signal => .killed signal
      | _ => s.flow }

/-- Runs something with a new sink as standard output, and gives what it has written there. -/
def capture (s : Session) (run : Session → Session) : Text × Session :=
  let n := s.sinks.length
  let copy := run ({ s with sinks := s.sinks ++ [[]] }.connect 1 (.sink n))
  (copy.sinks[n]?.getD [],
    { s.afterCopy copy with sinks := copy.sinks.take n, outputStatus := copy.status })

end Session

end GraphFeed.Shell
