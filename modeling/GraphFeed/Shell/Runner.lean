import GraphFeed.Command
import GraphFeed.Shell.Evaluation
import GraphFeed.Text.Line
import GraphFeed.Text.Utf8

/-!
# Shells as runners of commands

`runCommand` hands a command to a shell and answers with what it has written, as text with unified
line ends. The shell and the time limit are settings, and may be of any kind until a command is run.

A program that is no shell may be named too; it is then called as a shell would be, with `-c` and the
command as arguments.

This is the `Runner` that the program runs with, in place of the shell of a machine. It and the modules
below it are there to run the program. What is said of expansions and runs is said of every runner, and
rests on nothing here.
-/

namespace GraphFeed.Shell

/-! ## 1. Bytes -/

/-- A surrogate that stands for a byte that is no part of a text. -/
def isByteMark (c : CodePoint) : Bool := 0xDC80 ≤ c.val && c.val ≤ 0xDCFF

/-- The bytes of a text, each as the code point of its number. Other surrogates than those that
    stand for bytes have none. -/
def toBytes (t : Text) : Except Error Text :=
  let isBad (c : CodePoint) : Bool := c.isSurrogate && !isByteMark c
  match t.findIdx? isBad with
  | some i => .error (.unencodable ⟨i, (t.drop i).takeWhile CodePoint.isSurrogate⟩)
  | none =>
    .ok (t.flatMap fun c =>
      if isByteMark c then [.ofNat (c.val - 0xDC00)]
      else (Utf8.encodeOne c).map fun b => .ofNat b.toNat)

/-- The bytes of an argument of a program, which may not hold a zero. -/
def toArgument (t : Text) : Except Error Text :=
  match toBytes t with
  | .error e => .error e
  | .ok bytes => if bytes.any (·.val = 0) then .error .commandNul else .ok bytes

/-- The text that bytes encode, with unified line ends. -/
def ofBytes (bytes : Text) : Except Error Text :=
  match Utf8.decode (bytes.map fun c => c.val.toUInt8) with
  | .ok t => .ok (Text.unifyNewlines t)
  | .error u => .error (.undecodable u)

/-! ## 2. Time limits -/

/-- A time limit in seconds, as a quotient. -/
def readLimit (limit : Value) : Except LimitFault (Option (Int × Nat)) :=
  match limit with
  | .null => .ok none
  | .bool b => .ok (some (if b then 1 else 0, 1))
  | .int n => bounded n 1
  | .float .nan => .error .undefined
  | .float (.infinite true) => .ok (some (-1, 1))
  | .float (.infinite false) => .error .infinite
  | .float (.finite isNegative mantissa exponent) =>
    let (num, den) := Binary64.magnitude mantissa exponent
    bounded (if isNegative then -(num : Int) else num) den
  | v => .error (.noNumber v.kind)
where
  /-- A limit that one can wait for. -/
  bounded (num : Int) (den : Nat) : Except LimitFault (Option (Int × Nat)) :=
    if num * 1000 > 9223372036854 * den then .error .beyondClock
    else if num * 1000 > 2147483647 * den then .error .beyondWait
    else .ok (some (num, den))

/-- A time in microseconds is not below a limit, or the limit leaves no time at all. -/
def isPast (limit : Int × Nat) (clock : Nat) : Bool :=
  decide (limit.1 ≤ 0) || decide (limit.1 * 1000000 ≤ clock * limit.2)

/-! ## 3. Programs -/

/-- Directories and files that are there but are no programs. -/
def otherPaths : List String := "" :: "." :: ".." :: systemDirectories ++ systemFiles

/-- How a program has ended. -/
structure Ended where
  /-- The status, or the negative number of the signal that has ended it. -/
  status : Int
  output : Text
  errors : Text
  clock : Nat

/-- Calls a program with `-c` and a command, or tells why it cannot be started. -/
def call (path : Text) (bindings : List (Text × Text)) (files : FileTree) (command : Text) :
    Except StartFault Ended :=
  match dialect? path with
  | some dialect =>
    let s := run dialect path bindings files command
    .ok ⟨match s.flow with
      | .killed signal => -(signal : Int)
      | _ => s.status, s.sinks[0]?.getD [], s.sinks[1]?.getD [], s.clock⟩
  | none =>
    match tool? path with
    | some tool =>
      let effect := tool path [Text.ofString "-c", command] files []
      .ok ⟨effect.status, effect.output, effect.errors, effect.pause⟩
    | none =>
      let bare := Tool.dropSlashes path
      if otherPaths.any fun p => Text.ofString p = path ∨ (bare ≠ [] ∧ Text.ofString p = bare) then
        .error .notPermitted
      else if bare.length < path.length ∧ ((tool? bare).isSome ∨ (dialect? bare).isSome) then
        .error .noDirectory
      else if (Text.splitOn path '/').length = 1 then .error .missing
      else
        match files.entry path with
        | .missing => .error .missing
        | _ => .error .notPermitted

/-! ## 4. Commands -/

/-- The answer to a command that has been started. -/
def answer (command : Text) (limit : Value) (ended : Ended) : Except Error Output := do
  match readLimit limit with
  | .error fault => throw (.commandLimit fault)
  | .ok (some limitValue) =>
    if isPast limitValue ended.clock then
      throw (.command ⟨command, .timedOut limit, none, []⟩)
  | .ok none => pure ()
  let output ← ofBytes ended.output
  let errors ← ofBytes ended.errors
  if ended.status = 0 then return ⟨output, errors⟩
  else throw (.command ⟨command, .ended, some ended.status, errors⟩)

/-- Hands a command to a shell. -/
def runCommand (shell limit : Value) (bindings : List (Text × Text)) (files : FileTree)
    (command : Text) : Except Error Output :=
  match shell with
  | .text path => do
    let name ← toArgument path
    let script ← toArgument command
    let bindings ← bindings.mapM fun (name, value) => do
      return (← toBytes name, ← toBytes value)
    let files ← files.mapM fun (path, content) => do return (← toBytes path, ← toBytes content)
    match call name bindings files script with
    | .ok ended => answer command limit ended
    | .error fault => throw (.command ⟨command, .notStarted path fault, none, []⟩)
  | v => .error (.shellKind v.kind)

/-- The runner of a shell. -/
def runner (shell limit : Value) (bindings : List (Text × Text)) (files : FileTree) : Runner :=
  .ofFunction (runCommand shell limit bindings files)

end GraphFeed.Shell
