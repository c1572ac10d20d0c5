import GraphFeed.FileTree
import GraphFeed.Shell.Format
import GraphFeed.Text.Line

/-!
# Tools

A tool is a program that a script may run: it is given the name it is called by, arguments, the files
and the input, and answers with what it writes, its status, what it leaves of the input, and how long it
waits. `tool?` finds a tool by its name.

Part of the shell that the program is run with (`Shell.Runner`).
-/

namespace GraphFeed.Shell

/-- What a tool does. -/
structure Effect where
  output : Text
  errors : Text
  status : Nat
  /-- What is left of the input. -/
  input : Text
  /-- The microseconds that the tool waits. -/
  pause : Nat

/-- A program, from the name it is called by, its arguments, the files and the input to its effect.
    The name is put in front of messages. -/
abbrev Tool := Text → List Text → FileTree → Text → Effect

namespace Tool

/-! ## 1. Input and options -/

/-- A text between typographic quote marks. -/
def quoted (t : Text) : Text :=
  .concat [[.ofNat 0xE2, .ofNat 0x80, .ofNat 0x98], t, [.ofNat 0xE2, .ofNat 0x80, .ofNat 0x99]]

/-- A tool that only ends with a status. -/
def ending (status : Nat) : Tool := fun _ _ _ input => ⟨[], [], status, input, 0⟩

/-- A tool that refuses its arguments. -/
def refusing (status : Nat) (message : Text) : Tool := fun name _ _ input =>
  ⟨[], .concat [name, ": ", message, "\nTry '", name, " --help' for more information.\n"], status,
    input, 0⟩

/-- The contents of the named files, `-` being the input, and the messages for those that cannot be
    read. Without a name the input is read. -/
def contents (name : Text) (paths : List Text) (files : FileTree) (input : Text) :
    List Text × Text :=
  if paths.isEmpty then ([input], [])
  else
    let read (path : Text) : Except Text Text :=
      if path = Text.ofString "-" ∨ path = Text.ofString "/dev/stdin" then .ok input
      else if path = Text.ofString "/dev/null" then .ok []
      else
        match files.entry path with
        | .file content => .ok content
        | .directory => .error (.concat [name, ": ", path, ": Is a directory\n"])
        | .missing => .error (.concat [name, ": ", path, ": No such file or directory\n"])
    (paths.filterMap fun path => (read path).toOption,
      paths.flatMap fun path => match read path with
        | .ok _ => []
        | .error message => message)

/-- A tool that makes its output of all it reads. -/
def filter (paths : List Text) (f : Text → Text) : Tool := fun name _ files input =>
  let (read, messages) := contents name paths files input
  ⟨f read.flatten, messages, if messages.isEmpty then 0 else 1, [], 0⟩

/-- Options of one letter, with the values of those that have one, and the other arguments. -/
def readOptions (valued : String) (arguments : List Text) : List (Char × Text) × List Text :=
  go arguments.length arguments
where
  /-- The options of an argument, and whether the last of them still needs its value. -/
  letters : Text → List (Char × Text) × Option Char
    | [] => ([], none)
    | c :: t =>
      if oneOf valued c then
        if t.isEmpty then ([], some c.toChar) else ([(c.toChar, t)], none)
      else
        let (options, open?) := letters t
        ((c.toChar, []) :: options, open?)
  /-- The options at the start of arguments. -/
  go (fuel : Nat) (arguments : List Text) : List (Char × Text) × List Text :=
    match fuel, arguments with
    | 0, arguments => ([], arguments)
    | _, [] => ([], [])
    | fuel + 1, a :: rest =>
      if a = Text.ofString "--" then ([], rest)
      else
        match a with
        | '-' :: c :: t =>
          let (options, open?) := letters (c :: t)
          let (first, rest) : List (Char × Text) × List Text :=
            match open?, rest with
            | some c, value :: rest => ([(c, value)], rest)
            | some c, [] => ([(c, [])], [])
            | none, rest => ([], rest)
          let (more, rest) := go fuel rest
          (options ++ first ++ more, rest)
        | _ => ([], a :: rest)

/-- The value of an option. -/
def option? (options : List (Char × Text)) (letter : Char) : Option Text :=
  (options.find? fun o => o.1 = letter).map (·.2)

/-- An option is given. -/
def has (options : List (Char × Text)) (letter : Char) : Bool := (option? options letter).isSome

/-- The number that digits name. -/
def natural (t : Text) : Nat := t.foldl (fun n c => 10 * n + c.digit) 0

/-- A line without its line end. -/
def bare (line : Text) : Text := line.takeWhile (· ≠ ('\n' : CodePoint))

/-- Lines, each with a line end. -/
def ofLines (lines : List Text) : Text := lines.flatMap fun l => l ++ [('\n' : CodePoint)]

/-! ## 2. Sets of characters -/

/-- The members of the named classes. -/
def characterClass (name : Text) : List CodePoint :=
  (List.range 256).map CodePoint.ofNat |>.filter fun c =>
    match name.toString with
    | "upper" => c.between 'A' 'Z'
    | "lower" => c.between 'a' 'z'
    | "digit" => c.isDigit
    | "alpha" => c.between 'A' 'Z' || c.between 'a' 'z'
    | "alnum" => c.between 'A' 'Z' || c.between 'a' 'z' || c.isDigit
    | "space" => c.val = 32 || (9 ≤ c.val && c.val ≤ 13)
    | "blank" => isGap c
    | "punct" => (33 ≤ c.val && c.val ≤ 126) &&
        !(c.between 'A' 'Z' || c.between 'a' 'z' || c.isDigit)
    | "cntrl" => c.val < 32 || c.val = 127
    | "print" => 32 ≤ c.val && c.val ≤ 126
    | "graph" => 33 ≤ c.val && c.val ≤ 126
    | "xdigit" => c.hex?.isSome
    | _ => false

/-- The member that a character after a backslash begins, and the rest. -/
def escapedMember (c : CodePoint) (t : Text) : CodePoint × Text :=
  if Format.isOctal c || Format.escapeLetters.any fun e => CodePoint.ofChar e.1 = c then
    Format.readEscape (c :: t)
  else (c, t)

/-- The members of a set, in order: characters, ranges, classes and escapes. -/
def members (fuel : Nat) (t : Text) : List CodePoint :=
  match fuel with
  | 0 => []
  | fuel + 1 =>
    match t with
    | '[' :: ':' :: u =>
      let name := u.takeWhile (· ≠ (':' : CodePoint))
      match u.drop name.length with
      | ':' :: ']' :: rest => characterClass name ++ members fuel rest
      | _ => '[' :: members fuel (':' :: u)
    | '\\' :: c :: u =>
      let (member, rest) := escapedMember c u
      member :: members fuel rest
    | a :: '-' :: b :: rest =>
      ((List.range (b.val + 1 - a.val)).map fun i => .ofNat (a.val + i)) ++ members fuel rest
    | c :: rest => c :: members fuel rest
    | [] => []

/-- One of each run of members of a set. -/
def squeeze (set : List CodePoint) (last : Option CodePoint) : Text → Text
  | [] => []
  | c :: t =>
    if last = some c ∧ set.contains c then squeeze set last t else c :: squeeze set (some c) t

/-- Replaces, deletes or squeezes characters. -/
def exchange : Tool := fun name arguments files input =>
  let (options, sets) := readOptions "" arguments
  let set (n : Nat) : List CodePoint :=
    let t := sets[n]?.getD []
    members (t.length + 1) t
  let first :=
    if has options 'c' || has options 'C' then
      (List.range 256).map CodePoint.ofNat |>.filter fun c => !(set 0).contains c
    else set 0
  let second := set 1
  match sets with
  | [] => refusing 1 "missing operand" name arguments files input
  | _ =>
    if has options 'd' then
      let t := input.filter fun c => !first.contains c
      ⟨if has options 's' then squeeze second none t else t, [], 0, [], 0⟩
    else if sets.length = 1 then
      if has options 's' then ⟨squeeze first none input, [], 0, [], 0⟩
      else
        ⟨[], .concat [name, ": missing operand after ", quoted (sets.headD []),
          "\nTwo strings must be given when translating.\nTry '", name, " --help' for more information.\n"],
          1, input, 0⟩
    else
      let replaced := input.map fun c =>
        match first.reverse.idxOf? c with
        | some i => (second[first.length - 1 - i]? <|> second.getLast?).getD c
        | none => c
      ⟨if has options 's' then squeeze second none replaced else replaced, [], 0, [], 0⟩

/-! ## 3. Parts of the input -/

/-- The first or the last lines or bytes. -/
def part (atEnd : Bool) : Tool := fun name arguments files input =>
  let arguments := match arguments with
    | ('-' :: d :: t) :: rest =>
      if d.isDigit then Text.ofString "-n" :: (d :: t) :: rest else ('-' :: d :: t) :: rest
    | arguments => arguments
  let (options, paths) := readOptions "nc" arguments
  let take (given : Text) (items : List Text) : List Text :=
    match given with
    | '+' :: t => if atEnd then items.drop (natural t - 1) else items.take (natural t)
    | '-' :: t => if atEnd then items.drop (items.length - natural t)
      else items.take (items.length - natural t)
    | t => if atEnd then items.drop (items.length - natural t) else items.take (natural t)
  filter paths (fun t =>
    match option? options 'c' with
    | some given => (take given (t.map fun c => [c])).flatten
    | none => (take ((option? options 'n').getD "10") (Text.lines t)).flatten) name arguments files input

/-- Counts lines, words or bytes. -/
def count : Tool := fun name arguments files input =>
  let (options, paths) := readOptions "" arguments
  let words (t : Text) : Nat :=
    ((t.zip ((' ' : CodePoint) :: t)).countP fun (c, before) => isBreak before && !isBreak c)
  let counts (t : Text) : List Nat :=
    let all := options.isEmpty
    (if all || has options 'l' then [t.count ('\n' : CodePoint)] else []) ++
      (if all || has options 'w' then [words t] else []) ++
      (if has options 'm' then [t.countP fun c => c.val < 128 || 192 ≤ c.val] else []) ++
      (if all || has options 'c' then [t.length] else [])
  let (read, messages) := contents name paths files input
  let width (ns : List Nat) : Nat :=
    if ns.length = 1 && paths.length ≤ 1 then 1
    else if paths.isEmpty then 7
    else (Text.ofNat (read.flatten.length)).length
  let shown (t name : Text) : Text :=
    let ns := counts t
    let column (n : Nat) : Text :=
      let digits := Text.ofNat n
      List.replicate (width ns - digits.length) (' ' : CodePoint) ++ digits
    Text.join " " (ns.map column) ++ (if name.isEmpty then "\n" else .concat [" ", name, "\n"] : Text)
  ⟨((read.zip (if paths.isEmpty then [[]] else paths)).flatMap fun (t, name) => shown t name),
    messages, if messages.isEmpty then 0 else 1, [], 0⟩
where
  /-- A character between words. -/
  isBreak (c : CodePoint) : Bool := c.val = 32 || (9 ≤ c.val && c.val ≤ 13)

/-- The positions that a list such as `1,3-5` names: pairs of a first and a last one. -/
def ranges (t : Text) : List (Nat × Nat) :=
  (Text.splitOn t ',').map fun range =>
    match Text.splitOn range '-' with
    | [n] => (natural n, natural n)
    | n :: m :: _ => (if n.isEmpty then 1 else natural n, if m.isEmpty then Nat.pow 2 32 else natural m)
    | [] => (0, 0)

/-- Columns of each line. -/
def cut : Tool := fun name arguments files input =>
  let (options, paths) := readOptions "dfcb" arguments
  let chosen {α : Type} (list : Text) (items : List α) : List α :=
    (items.zipIdx 1).filterMap fun (x, i) =>
      if (ranges list).any fun (low, high) => decide (low ≤ i ∧ i ≤ high) then some x else none
  filter paths (fun t => ofLines ((Text.lines t).map fun line =>
    let line := bare line
    match option? options 'f', (option? options 'c' <|> option? options 'b') with
    | some list, _ =>
      let delimiter := ((option? options 'd').bind List.head?).getD '\t'
      if (Text.splitOn line delimiter).length = 1 then line
      else Text.join [delimiter] (chosen list (Text.splitOn line delimiter))
    | none, some list => chosen list line
    | none, none => line)) name arguments files input

/-! ## 4. Order of lines -/

/-- The number at the start of a line. -/
def leadingNumber (t : Text) : Int :=
  match t.dropWhile isGap with
  | '-' :: u => -(natural (u.takeWhile CodePoint.isDigit) : Int)
  | u => natural (u.takeWhile CodePoint.isDigit)

/-- Sorts lines. -/
def sort : Tool := fun name arguments files input =>
  let (options, paths) := readOptions "" arguments
  let le (a b : Text) : Bool :=
    if has options 'n' && leadingNumber a != leadingNumber b then
      decide (leadingNumber a < leadingNumber b)
    else Text.le a b
  filter paths (fun t =>
    let lines := ((Text.lines t).map bare).mergeSort le
    let lines := if has options 'r' then lines.reverse else lines
    ofLines (if has options 'u' then lines.eraseDups else lines)) name arguments files input

/-- Lines with the number of times that each follows itself. -/
def runs : List Text → List (Nat × Text)
  | [] => []
  | line :: rest =>
    match runs rest with
    | (n, other) :: more =>
      if line = other then (n + 1, other) :: more else (1, line) :: (n, other) :: more
    | [] => [(1, line)]

/-- Keeps one of each run of equal lines. -/
def unique : Tool := fun name arguments files input =>
  let (options, paths) := readOptions "" arguments
  filter (paths.take 1) (fun t =>
    let kept := (runs ((Text.lines t).map bare)).filter fun (n, _) =>
      if has options 'd' then decide (1 < n) else if has options 'u' then n = 1 else true
    ofLines (kept.map fun (n, line) =>
      if has options 'c' then
        let digits := Text.ofNat n
        .concat [List.replicate (7 - digits.length) (' ' : CodePoint), digits, " ", line]
      else line)) name arguments files input

/-- A tool that changes each line, or the order of the lines. -/
def onLines (f : List Text → List Text) : Tool := fun name arguments files input =>
  let (_, paths) := readOptions "" arguments
  filter paths (fun t => ofLines (f ((Text.lines t).map bare))) name arguments files input

/-! ## 5. Other tools -/

/-- Writes its arguments as they stand, or with escapes. -/
def echo : Tool := fun _ arguments _ input =>
  let isOption (a : Text) : Bool :=
    a.head? = some ('-' : CodePoint) && decide (1 < a.length) && (a.drop 1).all (oneOf "neE")
  let options := (arguments.takeWhile isOption).flatMap (·.drop 1)
  let words := arguments.dropWhile isOption
  let lineEnd := !options.any (oneOf "n")
  let t := if options.any (oneOf "e") then Format.echoed lineEnd words
    else Text.join " " words ++ (if lineEnd then "\n" else "" : String)
  ⟨t, [], 0, input, 0⟩

/-- Prints a format. -/
def printFormat : Tool := fun name arguments files input =>
  match arguments with
  | [] => refusing 1 "missing operand" name arguments files input
  | format :: arguments =>
    let p := Format.print (arguments.length + 1) format arguments
    ⟨p.output, p.messages.flatMap fun m => Text.concat [name, ": ", m, "\n"], min p.status 1, input, 0⟩

/-- Numbers from a first to a last one. -/
def sequence : Tool := fun name arguments files input =>
  let (separator, arguments) : Text × List Text :=
    match arguments with
    | option :: value :: rest =>
      if option = Text.ofString "-s" then (value, rest) else ("\n", arguments)
    | arguments => ("\n", arguments)
  let numbers (first step last : Int) : List Int :=
    if step = 0 then []
    else
      let n := (last - first) / step
      if n < 0 then [] else (List.range (n.toNat + 1)).map fun i => first + step * Int.ofNat i
  let shown (ns : List Int) : Effect :=
    ⟨if ns.isEmpty then [] else Text.join separator (ns.map Text.ofInt) ++ [('\n' : CodePoint)],
      [], 0, input, 0⟩
  match arguments.map Arithmetic.number? with
  | [some last] => shown (numbers 1 1 last)
  | [some first, some last] => shown (numbers first 1 last)
  | [some first, some step, some last] => shown (numbers first step last)
  | [] => refusing 1 "missing operand" name arguments files input
  | _ =>
    refusing 1 (.concat ["invalid floating point argument: ", quoted (arguments.headD [])])
      name arguments files input

/-- The microseconds of a time such as `0.5` or `2m`. -/
def duration? (t : Text) : Option Nat :=
  let (digits, unit) : Text × Nat :=
    match t.getLast? with
    | some 's' => (t.dropLast, 1)
    | some 'm' => (t.dropLast, 60)
    | some 'h' => (t.dropLast, 3600)
    | some 'd' => (t.dropLast, 86400)
    | _ => (t, 1)
  match readFloat? digits with
  | some (.finite false mantissa exponent) =>
    let (num, den) := Binary64.magnitude mantissa exponent
    some (Binary64.roundToEven (num * 1000000 * unit) den)
  | _ => none

/-- Waits. -/
def sleep : Tool := fun name arguments files input =>
  match arguments with
  | [] => refusing 1 "missing operand" name arguments files input
  | _ =>
    match arguments.find? fun a => (duration? a).isNone with
    | some a => refusing 1 (.concat ["invalid time interval ", quoted a]) name arguments files input
    | none => ⟨[], [], 0, input, (arguments.filterMap duration?).foldl (· + ·) 0⟩

/-- The text without slashes at its end. -/
def dropSlashes (t : Text) : Text :=
  (t.reverse.dropWhile (· = ('/' : CodePoint))).reverse

/-- The last step of a path. -/
def lastStep (path ending : Text) : Text :=
  let step := ((Text.splitOn (dropSlashes path) '/').getLast?).getD []
  if step.isEmpty then (if path.isEmpty then [] else ['/'])
  else if ending != step && ending.isSuffixOf step then step.take (step.length - ending.length)
  else step

/-- The path without its last step. -/
def withoutLastStep (path : Text) : Text :=
  match (Text.splitOn (dropSlashes path) '/').dropLast with
  | [] => if path.head? = some ('/' : CodePoint) then ['/'] else ['.']
  | steps =>
    let t := dropSlashes (Text.join "/" steps)
    if t.isEmpty then ['/'] else t

/-- A tool that writes a line made of its arguments. -/
def answering (f : Text → Text → Text) : Tool := fun name arguments files input =>
  match arguments with
  | [] => refusing 1 "missing operand" name arguments files input
  | first :: rest => ⟨f first (rest.headD []) ++ [('\n' : CodePoint)], [], 0, input, 0⟩

/-- Copies what it reads. -/
def concatenate : Tool := fun name arguments files input =>
  match readOptions "" arguments with
  | ((letter, _) :: _, paths) =>
    if letter = 'u' then filter paths id name arguments files input
    else
      refusing 1 (.concat ["invalid option -- '", [CodePoint.ofChar letter], "'"]) name arguments
        files input
  | ([], paths) => filter paths id name arguments files input

/-- The names in the directory at a path: of the files in it, and of the directories. -/
def namesIn (files : FileTree) (path : Text) : List Text :=
  let above := FileTree.steps path
  let names := files.filterMap fun f =>
    let steps := FileTree.steps f.1
    if above.isPrefixOf steps then (steps.drop above.length).head? else none
  (names.mergeSort Text.le).eraseDups

/-- Lists directories. -/
def list : Tool := fun name arguments files input =>
  let (_, paths) := readOptions "" arguments
  let listed (path : Text) : Except Text (List Text) :=
    match files.entry path with
    | .file _ => .ok [path]
    | .directory => .ok (namesIn files path)
    | .missing =>
      .error (.concat [name, ": cannot access '", path, "': No such file or directory\n"])
  let answers := (if paths.isEmpty then [Text.ofString "."] else paths).map listed
  let messages := answers.flatMap fun
    | .ok _ => []
    | .error message => message
  ⟨answers.flatMap fun
    | .ok names => ofLines names
    | .error _ => [], messages, if messages.isEmpty then 0 else 2, input, 0⟩

/-- The tools by name. -/
def all : List (String × Tool) :=
  [("true", ending 0), ("false", ending 1), ("echo", echo), ("printf", printFormat),
    ("cat", concatenate), ("ls", list), ("tr", exchange), ("head", part false),
    ("tail", part true), ("wc", count), ("cut", cut), ("sort", sort), ("uniq", unique),
    ("rev", onLines (·.map List.reverse)), ("tac", onLines List.reverse),
    ("seq", sequence), ("sleep", sleep), ("basename", answering lastStep),
    ("dirname", answering fun path _ => withoutLastStep path)]

end Tool

/-- Directories that every system has. -/
def systemDirectories : List String :=
  ["/", "/bin", "/boot", "/dev", "/etc", "/home", "/lib", "/mnt", "/opt", "/proc", "/root", "/run",
    "/sbin", "/srv", "/sys", "/tmp", "/usr", "/usr/bin", "/usr/lib", "/usr/local",
    "/usr/local/bin", "/usr/share", "/var", "/var/tmp"]

/-- Files that every system has and that are no programs. -/
def systemFiles : List String := ["/dev/null", "/etc/hosts", "/etc/passwd"]

/-- The directories in which tools and shells are found. -/
def programDirectories : List String :=
  ["/bin/", "/usr/bin/", "/usr/local/bin/", "/sbin/", "/usr/sbin/"]

/-- The name of a program without the directory of programs before it. A path that leads elsewhere
    has none. -/
def programName? (path : Text) : Option Text :=
  let steps := Text.splitOn path '/'
  match steps.getLast? with
  | none => some path
  | some name =>
    if steps.length = 1 then some path
    else if programDirectories.any fun d => Text.ofString d ++ name = path then some name
    else none

/-- The tool with a name or at a path. -/
def tool? (path : Text) : Option Tool := do
  let name ← programName? path
  (Tool.all.find? fun t => Text.ofString t.1 = name).map (·.2)

end GraphFeed.Shell
