import GraphFeed.Shell.Builtin
import GraphFeed.Shell.Expansion
import GraphFeed.Shell.Reading

/-!
# Running scripts

`runScript` carries a script out line by line, each line being read when its turn comes. A command
changes the state of the shell; what it writes goes to the channels of the state.

A script may run for ever. Steps are therefore counted, and when they run out the clock is set to a
time after any limit.

Part of the shell that the program is run with (`Shell.Runner`).
-/

namespace GraphFeed.Shell

/-! ## 1. Parts of commands -/

/-- A time after any limit. -/
def endOfTime : Nat := Nat.pow 10 30

/-- Ends a shell that has run out of steps. -/
def Session.exhaust (s : Session) : Session := { s with flow := .ended, clock := endOfTime }

/-- Ends the shell after a command that has failed, if it is to end then and the command is no
    condition. -/
def Session.checkFailure (s : Session) (isCondition : Bool) : Session :=
  if s.isGoing && s.endsAtFailure && !isCondition && s.status != 0 then { s with flow := .ended }
  else s

/-- Carries out a redirection and tells whether it was possible. -/
def redirect (capture : Capture) (r : Redirection) (s : Session) : Bool × Session :=
  let (target, s) := expandWord capture r.word s
  let refused (message : Text) : Bool × Session := (false, s.fail 2 message)
  let isNowhere := target = Text.ofString "/dev/null"
  let inDirectory : Bool :=
    target.head? != some ('/' : CodePoint) || target.startsWith (Text.ofString "/tmp/")
  match r.direction with
  | .read =>
    if isNowhere then (true, { s with input := [] })
    else
      match s.files.entry target with
      | .file content => (true, { s with input := content })
      | _ => refused (.concat ["cannot open ", target, ": No such file"])
  | .overwrite | .append =>
    if isNowhere then (true, s.connect r.descriptor .nowhere)
    else if target = Text.ofString "/dev/stderr" then
      (true, s.connect r.descriptor ((s.channel? 2).getD .nowhere))
    else if target = Text.ofString "/dev/stdout" then
      (true, s.connect r.descriptor ((s.channel? 1).getD .nowhere))
    else if !inDirectory then
      refused (.concat ["cannot create ", target, ": Directory nonexistent"])
    else
      let files := match r.direction, s.files.entry target with
        | .append, .file _ => s.files
        | _, _ => s.files.write target []
      (true, { s with files }.connect r.descriptor (.file target))
  | .duplicate =>
    if target = Text.ofString "-" then (true, s.disconnect r.descriptor)
    else
      match Builtin.digits? target with
      | some n =>
        match s.channel? n with
        | some channel => (true, s.connect r.descriptor channel)
        | none =>
          if n = 0 then (true, s)
          else refused (.concat [target, ": Bad file descriptor"])
      | none => (false, s.giveUp "Syntax error: Bad fd number")

/-- Carries out redirections up to one that is not possible. -/
def redirectAll (capture : Capture) : List Redirection → Session → Bool × Session
  | [], s => (true, s)
  | r :: rs, s =>
    match redirect capture r s with
    | (true, s) => redirectAll capture rs s
    | (false, s) => (false, s)

/-- Carries out assignments. -/
def assignAll (capture : Capture) : List Assignment → Session → Session
  | [], s => s
  | a :: rest, s =>
    let (value, s) := expandWord capture a.value s
    if s.isGoing then assignAll capture rest (s.assign a.name value) else s

/-- Runs a tool that is called by a name. -/
def runTool (tool : Tool) (name : Text) (arguments : List Text) (s : Session) : Session :=
  let effect := tool name arguments s.files s.input
  let s := (s.write 1 effect.output).write 2 effect.errors
  { s with status := effect.status, input := effect.input, clock := s.clock + effect.pause }

/-- The channels and the input of another state. What was read from a shared input is gone. -/
def Session.restore (s before : Session) (inputToo : Bool) : Session :=
  { s with channels := before.channels, input := if inputToo then before.input else s.input }

/-- One of the redirections gives the command another input. -/
def changesInput (rs : List Redirection) : Bool := rs.any fun r => r.direction = .read

/-- The names of shells with their dialects. -/
def shells : List (String × Dialect) := [("sh", .posix), ("dash", .posix), ("bash", .bash)]

/-- The dialect of the shell with a name or at a path. -/
def dialect? (path : Text) : Option Dialect := do
  let name ← programName? path
  (shells.find? fun d => Text.ofString d.1 = name).map (·.2)

/-- The state of a shell after a script that another shell has carried out in a copy. A shell reports a
    signal that has ended the other one. -/
def Session.afterShell (s copy : Session) : Session :=
  match s.dialect, copy.flow with
  | .posix, .killed signal =>
    let s := { s.afterCopy { copy with flow := .ended } with status := 128 + signal }
    match Builtin.signalNotice? signal with
    | some notice => s.write 2 (notice ++ [('\n' : CodePoint)])
    | none => s
  | _, _ => s.afterCopy copy

/-- Fails because there is no such command. -/
def Session.notFound (s : Session) (name : Text) : Session :=
  if name.contains ['/'] && (Builtin.unary? s.files "-e" name).getD false then
    let isDirectory := (Builtin.unary? s.files "-d" name).getD false
    s.fail 126 (.concat [name, match s.dialect, isDirectory with
      | .bash, true => (": Is a directory" : Text)
      | _, _ => (": Permission denied" : Text)])
  else if name.isEmpty && s.dialect = .posix then s.fail 127 ": Permission denied"
  else
    s.fail 127 (.concat [name, match s.dialect with
      | .posix => (": not found" : Text)
      | .bash => if name.contains ['/'] then ": No such file or directory" else ": command not found"])

/-! ## 2. Commands -/

mutual

/-- Carries out a command. A failure of a condition is no reason to end the shell. -/
def carryOut (fuel : Nat) (isCondition : Bool) (c : Command) (s : Session) : Session :=
  match fuel with
  | 0 => s.exhaust
  | fuel + 1 =>
    let capture : Capture := fun script s => s.capture (runScript fuel script)
    match c with
    | .simple parts => (runSimple fuel parts { s with line := parts.line }).checkFailure isCondition
    | .sequence commands => runAll fuel isCondition commands s
    | .both first second =>
      let s := carryOut fuel true first s
      if s.isGoing && s.status = 0 then carryOut fuel isCondition second s else s
    | .either first second =>
      let s := carryOut fuel true first s
      if s.isGoing && s.status != 0 then carryOut fuel isCondition second s else s
    | .negated command =>
      let s := carryOut fuel true command s
      if s.isGoing then s.withStatus (if s.status = 0 then 1 else 0) else s
    | .pipeline stages =>
      let ended := runStages fuel s.clock stages s
      (s.afterCopy { ended with input := s.input }).checkFailure isCondition
    | .background command =>
      let copy := carryOut fuel true command s
      { s.afterCopy { copy with input := s.input } with status := 0, clock := max s.clock copy.clock }
    | .subshell body => (s.afterCopy (carryOut fuel isCondition body s)).checkFailure isCondition
    | .redirected body redirections =>
      match redirectAll capture redirections s with
      | (true, inside) =>
        (carryOut fuel isCondition body inside).restore s (changesInput redirections)
      | (false, after) => after.restore s true
    | .conditional condition body otherwise =>
      let s := carryOut fuel true condition s
      if s.isGoing then
        if s.status = 0 then carryOut fuel isCondition body s
        else carryOut fuel isCondition otherwise (s.withStatus 0)
      else s
    | .loop untilHolds condition body =>
      let ended := runLoop fuel isCondition untilHolds condition body 0 { s with loops := s.loops + 1 }
      { ended with loops := s.loops }
    | .each name words body =>
      let (values, s) := expandWords capture words s
      if s.isGoing then
        let ended := runEach fuel isCondition name values body
          { s.withStatus 0 with loops := s.loops + 1 }
        { ended with loops := s.loops }
      else s
    | .choice subject cases =>
      let (value, s) := expandWord capture subject s
      if s.isGoing then runCases fuel isCondition value cases (s.withStatus 0) else s
    | .define name body =>
      { s.withStatus 0 with functions := (name, body) :: s.functions.filter fun f => f.1 ≠ name }

/-- Carries out commands one after the other. -/
def runAll (fuel : Nat) (isCondition : Bool) (commands : List Command) (s : Session) : Session :=
  match fuel with
  | 0 => s.exhaust
  | fuel + 1 =>
    match commands with
    | [] => s
    | c :: rest =>
      let s := carryOut fuel isCondition c s
      if s.isGoing then runAll fuel isCondition rest s else s

/-- Carries out the stages of a pipeline, which begin at the same time. -/
def runStages (fuel : Nat) (clock : Nat) (stages : List Command) (s : Session) : Session :=
  match fuel with
  | 0 => s.exhaust
  | fuel + 1 =>
    match stages with
    | [] => s
    | [last] =>
      let ended := carryOut fuel true last { s with clock }
      { ended with clock := max s.clock ended.clock }
    | stage :: rest =>
      let (output, after) := s.capture fun s =>
        let ended := carryOut fuel true stage { s with clock }
        { ended with clock := max s.clock ended.clock }
      if after.isGoing then runStages fuel clock rest { after with input := output } else after

/-- Repeats a body. The status is that of the last body carried out. -/
def runLoop (fuel : Nat) (isCondition untilHolds : Bool) (condition body : Command) (status : Nat)
    (s : Session) : Session :=
  match fuel with
  | 0 => s.exhaust
  | fuel + 1 =>
    let s := carryOut fuel true condition s
    if s.isGoing then
      if (s.status = 0) != untilHolds then
        let s := carryOut fuel isCondition body s
        match s.flow with
        | .going => runLoop fuel isCondition untilHolds condition body s.status s
        | .renewing 1 =>
          runLoop fuel isCondition untilHolds condition body s.status { s with flow := .going }
        | .leaving n => { s with flow := if n ≤ 1 then .going else .leaving (n - 1) }
        | .renewing n => { s with flow := .renewing (n - 1) }
        | _ => s
      else s.withStatus status
    else s

/-- Carries out a body for each of some values of a variable. -/
def runEach (fuel : Nat) (isCondition : Bool) (name : Text) (values : List Text) (body : Command)
    (s : Session) : Session :=
  match fuel with
  | 0 => s.exhaust
  | fuel + 1 =>
    match values with
    | [] => s
    | value :: rest =>
      let s := carryOut fuel isCondition body (s.assign name value)
      match s.flow with
      | .going => runEach fuel isCondition name rest body s
      | .renewing 1 => runEach fuel isCondition name rest body { s with flow := .going }
      | .leaving n => { s with flow := if n ≤ 1 then .going else .leaving (n - 1) }
      | .renewing n => { s with flow := .renewing (n - 1) }
      | _ => s

/-- Carries out the first case with a pattern that a value matches. -/
def runCases (fuel : Nat) (isCondition : Bool) (value : Text) (cases : List (List Word × Command))
    (s : Session) : Session :=
  match fuel with
  | 0 => s.exhaust
  | fuel + 1 =>
    match cases with
    | [] => s
    | (patterns, body) :: rest =>
      let capture : Capture := fun script s => s.capture (runScript fuel script)
      let isChosen := patterns.any fun w => Pattern.holds (expandPattern capture w s).1 value
      if isChosen then carryOut fuel isCondition body s
      else runCases fuel isCondition value rest s

/-- Carries out a simple command. Without words, the assignments stay; else they hold for the command
    alone. -/
def runSimple (fuel : Nat) (parts : SimpleCommand) (s : Session) : Session :=
  match fuel with
  | 0 => s.exhaust
  | fuel + 1 =>
    let capture : Capture := fun script s => s.capture (runScript fuel script)
    let (fields, expanded) := expandWords capture parts.words { s with outputStatus := 0 }
    if !expanded.isGoing then expanded
    else
      match redirectAll capture parts.redirections expanded with
      | (false, after) => after.restore s true
      | (true, inside) =>
        let assigned := assignAll capture parts.assignments inside
        if !assigned.isGoing then assigned.restore s (changesInput parts.redirections)
        else
          match fields with
          | [] =>
            (assigned.withStatus assigned.outputStatus).restore s (changesInput parts.redirections)
          | name :: arguments =>
            if name = Text.ofString "exec" ∧ arguments = [] then assigned.withStatus 0
            else
              let ended := runNamed fuel name arguments assigned
              let ended := ended.restore s (changesInput parts.redirections)
              parts.assignments.foldl (fun ended a =>
                match s.value? a.name with
                | some value => ended.assign a.name value
                | none => ended.unset a.name) ended

/-- Carries out the command with a name: a function, a command of the shell, another shell or a
    tool. -/
def runNamed (fuel : Nat) (name : Text) (arguments : List Text) (s : Session) : Session :=
  match fuel with
  | 0 => s.exhaust
  | fuel + 1 =>
    match s.functions.find? fun f => f.1 = name with
    | some (_, body) =>
      let ended := carryOut fuel false body { s with arguments }
      { ended with
        arguments := s.arguments
        flow := if ended.flow = .returning then .going else ended.flow }
    | none =>
      if name = Text.ofString "eval" then
        runScript fuel (Text.join " " arguments) (s.withStatus 0)
      else if name = Text.ofString "exec" then
        match arguments with
        | [] => s
        | name :: arguments =>
          if (tool? name).isNone && (dialect? name).isNone then
            { s.fail 127 (.concat ["exec: ", name, ": not found"]) with flow := .ended }
          else
            let ended := runNamed fuel name arguments s
            if ended.isGoing then { ended with flow := .ended } else ended
      else if name = Text.ofString "command" then
        match arguments with
        | [] => s.withStatus 0
        | option :: name :: _ =>
          if option = Text.ofString "-v" then
            if (builtin? name).isSome then
              (s.write 1 (name ++ [('\n' : CodePoint)])).withStatus 0
            else if (tool? name).isSome || (dialect? name).isSome then
              (s.write 1 (.concat ["/usr/bin/", name, "\n"])).withStatus 0
            else s.withStatus 127
          else runNamed fuel option (arguments.drop 1) s
        | name :: rest => runNamed fuel name rest s
      else
        match builtin? name with
        | some builtin => builtin arguments s
        | none =>
          match dialect? name with
          | some dialect =>
            match arguments with
            | option :: script :: rest =>
              if option = Text.ofString "-c" then
                s.afterShell (runScript fuel script { s with
                  dialect
                  name := rest.headD name
                  arguments := rest.drop 1
                  functions := []
                  status := 0
                  endsAtFailure := false
                  refusesMissing := false })
              else s.fail 127 (.concat [option, ": not found"])
            | _ => s.afterShell (runScript fuel s.input { s with dialect, name, input := [] })
          | none =>
            match tool? name with
            | some tool => runTool tool name arguments s
            | none => s.notFound name

/-- Carries out a script. -/
def runScript (fuel : Nat) (script : Text) (s : Session) : Session :=
  match fuel with
  | 0 => s.exhaust
  | fuel + 1 => runLines fuel (lexemes script) s

/-- Carries out the lines of a script. -/
def runLines (fuel : Nat) (xs : Lexemes) (s : Session) : Session :=
  match fuel with
  | 0 => s.exhaust
  | fuel + 1 =>
    match readLine xs with
    | .error (line, fault) => { s with line }.giveUp fault.message
    | .ok (commands, rest) =>
      let s := runAll fuel false commands s
      if !s.isGoing then s
      else if rest.isEmpty || rest.length = xs.length then s
      else runLines fuel rest s

end

/-- How many steps a script may take one inside the other. -/
def stepLimit : Nat := 20000

/-- The state of a shell after a script. -/
def run (dialect : Dialect) (name : Text) (bindings : List (Text × Text)) (files : FileTree)
    (script : Text) : Session :=
  runScript stepLimit script (.start dialect name bindings files)

end GraphFeed.Shell
