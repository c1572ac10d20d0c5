import GraphFeed.Shell.Session
import GraphFeed.Shell.Tool

/-!
# Commands of the shell itself

Some commands are carried out by the shell, because they change its state or because it is quicker.
`builtin?` finds them by name. Commands that run other commands are not among them.

Part of the shell that the program is run with (`Shell.Runner`).
-/

namespace GraphFeed.Shell

/-- A command of the shell: what it does with its arguments to the state. -/
abbrev Builtin := List Text → Session → Session

namespace Builtin

/-! ## 1. Numbers and signals -/

/-- The number that consists of digits alone. -/
def digits? (t : Text) : Option Nat :=
  if !t.isEmpty && t.all CodePoint.isDigit then some (Tool.natural t) else none

/-- The names of the signals from number 1 on. -/
def signalNames : List String :=
  ["HUP", "INT", "QUIT", "ILL", "TRAP", "ABRT", "BUS", "FPE", "KILL", "USR1", "SEGV", "USR2",
    "PIPE", "ALRM", "TERM", "16", "CHLD", "CONT", "STOP", "TSTP", "TTIN", "TTOU", "URG", "XCPU",
    "XFSZ", "VTALRM", "PROF", "WINCH", "IO", "PWR", "SYS"]

/-- The number of a signal given by its number or its name. -/
def signal? (t : Text) : Option Nat :=
  match digits? t with
  | some n => if n ≤ 64 then some n else none
  | none =>
    (signalNames.findIdx? fun name => (Text.ofString name).map lower = t.map lower).map (· + 1)
where
  /-- A letter in lower case. -/
  lower (c : CodePoint) : CodePoint := if c.between 'A' 'Z' then .ofNat (c.val + 32) else c

/-- The signals that end no process that does not expect them. -/
def harmless : List Nat := [0, 17, 18, 23, 28]

/-- What a shell says of a program that a signal has ended; for an interrupt and a broken pipe it says
    nothing. -/
def signalNotice? (signal : Nat) : Option Text :=
  match signal with
  | 1 => some "Hangup"
  | 3 => some "Quit"
  | 4 => some "Illegal instruction"
  | 5 => some "Trace/breakpoint trap"
  | 6 => some "Aborted"
  | 7 => some "Bus error"
  | 8 => some "Floating point exception"
  | 9 => some "Killed"
  | 10 => some "User defined signal 1"
  | 11 => some "Segmentation fault"
  | 12 => some "User defined signal 2"
  | 14 => some "Alarm clock"
  | 15 => some "Terminated"
  | _ => none

/-- Sends a signal to the shell, or fails to send it to anything else. -/
def send (signal : Nat) (target : Text) (s : Session) : Session :=
  if target = Session.processNumber then
    if harmless.contains signal then s.withStatus 0 else { s with flow := .killed signal }
  else
    match digits? target with
    | some _ => s.fail 1 "kill: No such process\n"
    | none => s.fail 2 (.concat ["kill: Illegal number: ", target])

/-- How `kill` is used. -/
def killUsage : Text :=
  "kill: Usage: kill [-s sigspec | -signum | -sigspec] [pid | job]... or\nkill -l [exitstatus]"

/-- Sends a signal. -/
def kill : Builtin := fun arguments s =>
  let reach (signal : Nat) (targets : List Text) : Session :=
    if targets.isEmpty then s.fail 2 killUsage
    else targets.foldl (fun s target => if s.isGoing then send signal target s else s) s
  match arguments with
  | [] => s.fail 2 killUsage
  | a :: rest =>
    if a = Text.ofString "--" then reach 15 rest
    else if a = Text.ofString "-l" then
      match rest with
      | [] => (s.write 1 (Tool.ofLines (Text.ofString "0" :: signalNames.map Text.ofString))).withStatus 0
      | n :: _ =>
        match (digits? n).bind fun n => signalNames[n % 128 - 1]? with
        | some name => (s.write 1 (Text.ofString name ++ [('\n' : CodePoint)])).withStatus 0
        | none => s.fail 2 (.concat ["kill: invalid signal number or exit status: ", n])
    else if a = Text.ofString "-s" then
      match rest with
      | [] => s.fail 2 "kill: No arg for -s option"
      | name :: rest =>
        match signal? name with
        | some signal => reach signal rest
        | none => s.fail 2 (.concat ["kill: invalid signal number or name: ", name])
    else
      match a with
      | '-' :: name =>
        match signal? name with
        | some signal => reach signal rest
        | none => s.fail 2 (.concat ["kill: Illegal option -", name.take 1])
      | _ => reach 15 (a :: rest)

/-! ## 2. Conditions -/

/-- The number that a condition compares. -/
def operand (t : Text) : Except Text Int :=
  match Arithmetic.number? (t.dropWhile isGap) with
  | some n => .ok n
  | none => .error ("Illegal number: " ++ t)

/-- A condition with one argument. -/
def unary? (files : FileTree) (operator : Text) (t : Text) : Option Bool :=
  let entry := files.entry t
  let isFile := match entry with
    | .file _ => true
    | _ => false
  let isDirectory := match entry with
    | .directory => true
    | _ => systemDirectories.any fun d => Text.ofString d = t
  let isSystemFile := systemFiles.any fun f => Text.ofString f = t
  match operator.toString with
  | "-n" => some !t.isEmpty
  | "-z" => some t.isEmpty
  | "-f" => some (isFile || isSystemFile && t ≠ Text.ofString "/dev/null")
  | "-d" => some isDirectory
  | "-e" | "-r" | "-w" => some (isFile || isDirectory || isSystemFile)
  | "-x" => some (isDirectory || (tool? t).isSome && t.contains ['/'])
  | "-s" => some (match entry with
    | .file content => !content.isEmpty
    | _ => isDirectory)
  | _ => none

/-- A condition with two arguments. -/
def binary? (a operator b : Text) : Option (Except Text Bool) :=
  let compared (holds : Int → Int → Bool) : Option (Except Text Bool) :=
    some (do return holds (← operand a) (← operand b))
  match operator.toString with
  | "=" => some (.ok (decide (a = b)))
  | "!=" => some (.ok (decide (a ≠ b)))
  | "-eq" => compared fun a b => decide (a = b)
  | "-ne" => compared fun a b => decide (a ≠ b)
  | "-lt" => compared fun a b => decide (a < b)
  | "-le" => compared fun a b => decide (a ≤ b)
  | "-gt" => compared fun a b => decide (b < a)
  | "-ge" => compared fun a b => decide (b ≤ a)
  | _ => none

/-- The value of a condition. `-o` binds weaker than `-a`. -/
def condition (fuel : Nat) (files : FileTree) (arguments : List Text) : Except Text Bool :=
  match fuel with
  | 0 => .error "argument expected"
  | fuel + 1 =>
    let refused : Except Text Bool :=
      .error (.concat [arguments.headD [], ": unexpected operator"])
    match arguments with
    | [] => .ok false
    | [a] => .ok !a.isEmpty
    | [o, a] =>
      if o = Text.ofString "!" then (condition fuel files [a]).map not
      else
        match unary? files o a with
        | some b => .ok b
        | none => refused
    | a :: o :: b :: rest =>
      let split (at_ : String) : Option (List Text × List Text) :=
        (arguments.findIdx? fun x => x = Text.ofString at_).map fun i =>
          (arguments.take i, arguments.drop (i + 1))
      if rest.isEmpty && (binary? a o b).isSome then (binary? a o b).getD refused
      else
        match split "-o" with
        | some (left, right) =>
          return (← condition fuel files left) || (← condition fuel files right)
        | none =>
          match split "-a" with
          | some (left, right) =>
            return (← condition fuel files left) && (← condition fuel files right)
          | none =>
            if a = Text.ofString "!" then (condition fuel files (o :: b :: rest)).map not
            else if a = Text.ofString "(" ∧ arguments.getLast? = some (Text.ofString ")") then
              condition fuel files (o :: b :: rest).dropLast
            else refused

/-- Tests a condition. -/
def test (name : String) : Builtin := fun arguments s =>
  match condition (arguments.length + 1) s.files arguments with
  | .ok holds => s.withStatus (if holds then 0 else 1)
  | .error message => s.fail 2 (.concat [name, ": ", message])

/-- Tests a condition in brackets. -/
def bracket : Builtin := fun arguments s =>
  if arguments.getLast? = some (Text.ofString "]") then test "[" arguments.dropLast s
  else s.fail 2 "[: missing ]"

/-! ## 3. Output and input -/

/-- Writes its arguments. In the POSIX dialect escapes are undone, and `-n` is the only option. -/
def echo : Builtin := fun arguments s =>
  match s.dialect with
  | .bash => (s.write 1 (Tool.echo "echo" arguments [] []).output).withStatus 0
  | .posix =>
    let isBare := arguments.head? = some (Text.ofString "-n")
    (s.write 1 (Format.echoed (!isBare) (if isBare then arguments.drop 1 else arguments))).withStatus 0

/-- Prints a format. -/
def printFormat : Builtin := fun arguments s =>
  let arguments := if arguments.head? = some (Text.ofString "--") then arguments.drop 1 else arguments
  match arguments with
  | [] => s.fail 2 "printf: usage: printf format [arg ...]"
  | format :: rest =>
    match format with
    | '-' :: c :: _ => s.fail 2 (.concat ["printf: Illegal option -", [c]])
    | _ =>
      let p := Format.print (rest.length + 1) format rest
      let s := s.write 1 p.output
      (p.messages.foldl (fun s m => s.report ("printf: " ++ m)) s).withStatus p.status

/-- The values of variables that a line gives: words, the last variable taking the rest. -/
def distribute (line : Text) : List Text → List (Text × Text)
  | [] => []
  | [name] => [(name, (((line.dropWhile isGap).reverse).dropWhile isGap).reverse)]
  | name :: names =>
    let line := line.dropWhile isGap
    let word := line.takeWhile fun c => !isGap c
    (name, word) :: distribute (line.drop word.length) names

/-- Reads a line into variables. -/
def readLine : Builtin := fun arguments s =>
  let names := arguments.filter fun a => a.head? ≠ some ('-' : CodePoint)
  if names.isEmpty then s.fail 2 "read: arg count"
  else
    let line := s.input.takeWhile (· ≠ ('\n' : CodePoint))
    let ended := line.length = s.input.length
    let s := { s with input := s.input.drop (line.length + 1) }
    ((distribute line names).foldl (fun s (name, value) => s.assign name value) s).withStatus
      (if ended then 1 else 0)

/-! ## 4. State -/

/-- Ends the shell. -/
def exit : Builtin := fun arguments s =>
  match arguments with
  | [] => { s with flow := .ended }
  | a :: _ =>
    match digits? a with
    | some n => { s with flow := .ended, status := n % 256 }
    | none => s.giveUp (.concat ["exit: Illegal number: ", a])

/-- Ends a function, or the shell where there is none. -/
def finish : Builtin := fun arguments s =>
  match arguments with
  | [] => { s with flow := .returning }
  | a :: _ =>
    match digits? a with
    | some n => { s with flow := .returning, status := n % 256 }
    | none => s.giveUp (.concat ["return: Illegal number: ", a])

/-- Leaves loops, or goes on with one. Where there is no loop, nothing happens. -/
def leave (make : Nat → Flow) : Builtin := fun arguments s =>
  if s.loops = 0 then s.withStatus 0
  else
    { s.withStatus 0 with flow := make (min s.loops (((arguments.head?).bind digits?).getD 1)) }

/-- Sets options or the arguments of the shell. -/
def set : Builtin := fun arguments s =>
  match arguments with
  | [] => s.withStatus 0
  | a :: rest =>
    let change (on : Bool) (letters : Text) : Session :=
      letters.foldl (fun s c =>
        if c = ('e' : CodePoint) then { s with endsAtFailure := on }
        else if c = ('u' : CodePoint) then { s with refusesMissing := on }
        else s) (s.withStatus 0)
    match a with
    | '-' :: '-' :: _ => { s.withStatus 0 with arguments := rest }
    | '-' :: letters => change true letters
    | '+' :: letters => change false letters
    | _ => { s.withStatus 0 with arguments := a :: rest }

/-- Drops arguments of the shell. -/
def shift : Builtin := fun arguments s =>
  let n := ((arguments.head?).bind digits?).getD 1
  if s.arguments.length < n then s.giveUp "shift: can't shift that many"
  else { s.withStatus 0 with arguments := s.arguments.drop n }

/-- Assigns values to variables that other programs see too. -/
def declare : Builtin := fun arguments s =>
  (arguments.foldl (fun s a =>
    let name := a.takeWhile (· ≠ ('=' : CodePoint))
    if name.length < a.length then s.assign name (a.drop (name.length + 1)) else s) s).withStatus 0

/-- Takes variables and functions away. -/
def unset : Builtin := fun arguments s =>
  (arguments.foldl (fun s a =>
    { s.unset a with functions := s.functions.filter fun f => f.1 ≠ a }) s).withStatus 0

/-- Goes to a directory. -/
def goTo : Builtin := fun arguments s =>
  match arguments with
  | [] => s.withStatus 0
  | a :: _ =>
    if (unary? s.files "-d" a).getD false then (s.assign "PWD" a).withStatus 0
    else s.fail 2 (.concat ["cd: can't cd to ", a])

/-- Writes the directory. -/
def whereAmI : Builtin := fun _ s =>
  (s.write 1 ((s.value? "PWD").getD "/" ++ [('\n' : CodePoint)])).withStatus 0

/-- The commands of the shell by name. -/
def all : List (String × Builtin) :=
  [(":", fun _ s => s.withStatus 0), ("true", fun _ s => s.withStatus 0),
    ("false", fun _ s => s.withStatus 1), ("echo", echo), ("printf", printFormat),
    ("test", test "test"), ("[", bracket), ("kill", kill), ("read", readLine), ("exit", exit),
    ("return", finish), ("break", leave .leaving), ("continue", leave .renewing), ("set", set),
    ("shift", shift), ("export", declare), ("readonly", declare), ("local", declare),
    ("unset", unset), ("cd", goTo), ("pwd", whereAmI), ("wait", fun _ s => s.withStatus 0),
    ("umask", fun _ s => s.withStatus 0)]

end Builtin

/-- The command of the shell with a name. -/
def builtin? (name : Text) : Option Builtin :=
  (Builtin.all.find? fun b => Text.ofString b.1 = name).map (·.2)

end GraphFeed.Shell
