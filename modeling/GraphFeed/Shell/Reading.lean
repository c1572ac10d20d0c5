import GraphFeed.Shell.Lexeme

/-!
# Reading of scripts

The grammar, from lexemes to commands:

* a sequence is made of chains, each but the last followed by `;`, `&` or a line end;
* a chain is made of pipelines joined by `&&` and `||`, which bind alike and to the left;
* a pipeline is made of commands joined by `|`, and may be negated by `!`;
* a command is a simple command, or one of the compound commands with redirections after it.

`readLine` reads the chains of one line of a script, which a shell carries out before it looks at the
next one.

Part of the shell that the program is run with (`Shell.Runner`).
-/

namespace GraphFeed.Shell

/-- The lexemes that are still to be read, each with its line. -/
abbrev Lexemes := List (Nat × Lexeme)

/-- Reads something from the lexemes, or stops at a line with a fault. -/
abbrev Reader := StateT Lexemes (Except (Nat × Fault))

/-! ## 1. Single lexemes -/

/-- The words that have a meaning where a command begins. -/
def reservedWords : List String :=
  ["!", "\x7b", "\x7d", "case", "do", "done", "elif", "else", "esac", "fi", "for", "if", "in",
    "then", "until", "while"]

/-- The reserved word that a lexeme is. -/
def Lexeme.reserved? : Lexeme → Option Text
  | .word [.literal t] => if reservedWords.any fun w => Text.ofString w = t then some t else none
  | _ => none

/-- The lexeme is a certain reserved word or operator. -/
def Lexeme.isSign (x : Lexeme) (sign : String) : Bool :=
  match x with
  | .operator o => o = Text.ofString sign
  | x => x.reserved? = some (Text.ofString sign)

/-- The lexeme as a fault names it. -/
def Lexeme.shown (x : Lexeme) : Text :=
  match x with
  | .operator o =>
    if (["<", ">", ">>", ">&", "<&", ">|"].any fun r => Text.ofString r = o) then "redirection"
    else .concat ["\"", o, "\""]
  | .descriptor _ => "redirection"
  | .lineEnd => "newline"
  | .finish => "end of file"
  | x =>
    match x.reserved? with
    | some t => .concat ["\"", t, "\""]
    | none => "word"

/-- The next lexeme. -/
def peek : Reader Lexeme := do return ((← get).head?.map (·.2)).getD .finish

/-- The line of the next lexeme. -/
def currentLine : Reader Nat := do return ((← get).head?.map (·.1)).getD 1

/-- Passes over the next lexeme. -/
def advance : Reader Unit := modify (·.drop 1)

/-- Refuses the next lexeme, where another one was expected. -/
def refuse {α : Type} (expected : Option Text) : Reader α := do
  match ← peek with
  | .fault f => throw (← currentLine, f)
  | x => throw (← currentLine, .unexpected x.shown expected)

/-- The next lexeme is a certain sign. -/
def isAt (sign : String) : Reader Bool := do return (← peek).isSign sign

/-- Passes over a sign if it is the next lexeme, and tells whether it was. -/
def accept (sign : String) : Reader Bool := do
  if ← isAt sign then
    advance
    return true
  else return false

/-- Passes over a sign that has to be there. -/
def expect (sign : String) : Reader Unit := do
  if ← accept sign then return () else refuse (some (.concat ["\"", sign, "\""]))

/-- Passes over line ends. -/
def skipLineEnds : Reader Unit :=
  modify fun xs => xs.dropWhile fun (_, x) => match x with
    | .lineEnd => true
    | _ => false

/-- The script is read to its end. -/
def atFinish : Reader Bool := do
  return match ← peek with
    | .finish => true
    | _ => false

/-- The next lexeme ends a sequence. -/
def atClosing : Reader Bool := do
  let x ← peek
  return ["then", "else", "elif", "fi", "do", "done", "esac", "\x7d", ")", ";;"].any x.isSign ||
    (← atFinish)

/-! ## 2. Simple commands -/

/-- The assignment that a word is. -/
def assignment? : Word → Option Assignment
  | .literal t :: rest =>
    let name := t.takeWhile (· ≠ ('=' : CodePoint))
    match t.drop name.length with
    | _ :: value =>
      if isName name then some ⟨name, if value.isEmpty then rest else .literal value :: rest⟩
      else none
    | [] => none
  | _ => none

/-- The descriptor and the direction of a redirection without a descriptor before it. -/
def direction? (sign : Text) : Option (Nat × Direction) :=
  if sign = Text.ofString "<" then some (0, .read)
  else if sign = Text.ofString ">" ∨ sign = Text.ofString ">|" then some (1, .overwrite)
  else if sign = Text.ofString ">>" then some (1, .append)
  else if sign = Text.ofString "<&" then some (0, .duplicate)
  else if sign = Text.ofString ">&" then some (1, .duplicate)
  else none

/-- The redirection that begins here, if one does. -/
def readRedirection? : Reader (Option Redirection) := do
  let given : Option Nat ← match ← peek with
    | .descriptor n => advance; pure (some n)
    | _ => pure none
  match ← peek with
  | .operator sign =>
    match direction? sign with
    | none => return none
    | some (n, direction) =>
      advance
      match ← peek with
      | .word w => advance; return some ⟨given.getD n, direction, w⟩
      | _ => refuse none
  | _ => return none

/-- The redirections from here on. -/
def readRedirections (fuel : Nat) : Reader (List Redirection) :=
  match fuel with
  | 0 => return []
  | fuel + 1 => do
    match ← readRedirection? with
    | none => return []
    | some r => return r :: (← readRedirections fuel)

/-- The rest of a simple command of which some parts have been read, the latest first. -/
def readParts (fuel : Nat) (parts : SimpleCommand) : Reader SimpleCommand :=
  match fuel with
  | 0 => return parts
  | fuel + 1 => do
    match ← peek with
    | .word w =>
      advance
      match (if parts.words.isEmpty then assignment? w else none) with
      | some a => readParts fuel { parts with assignments := a :: parts.assignments }
      | none => readParts fuel { parts with words := w :: parts.words }
    | _ =>
      match ← readRedirection? with
      | none => return parts
      | some r => readParts fuel { parts with redirections := r :: parts.redirections }

/-- A simple command. -/
def readSimple : Reader Command := do
  let line ← currentLine
  let size := (← get).length
  let parts ← readParts size ⟨line, [], [], []⟩
  if (← get).length = size then refuse none
  else
    return .simple
      ⟨line, parts.assignments.reverse, parts.words.reverse, parts.redirections.reverse⟩

/-- Words up to something else. -/
def readWords (fuel : Nat) : Reader (List Word) :=
  match fuel with
  | 0 => return []
  | fuel + 1 => do
    match ← peek with
    | .word w => advance; return w :: (← readWords fuel)
    | _ => return []

/-- The patterns of a case, with `|` between them. -/
def readPatterns (fuel : Nat) : Reader (List Word) :=
  match fuel with
  | 0 => refuse (some "\")\"")
  | fuel + 1 => do
    match ← peek with
    | .word w =>
      advance
      if ← accept "|" then return w :: (← readPatterns fuel) else return [w]
    | _ => refuse (some "\")\"")

/-- The name of the function whose definition begins here. -/
def definedName? : Reader (Option Text) := do
  match ← get with
  | (_, .word [.literal name]) :: (_, .operator sign) :: _ =>
    return if sign = Text.ofString "(" ∧ (Lexeme.word [.literal name]).reserved? = none then
      some name else none
  | _ => return none

/-! ## 3. Compound commands -/

mutual

/-- A sequence up to a sign that ends it. It has one chain at least, unless the script ends. -/
def readSequence (fuel : Nat) : Reader (List Command) :=
  match fuel with
  | 0 => refuse none
  | fuel + 1 => do
    skipLineEnds
    if ← atFinish then return []
    let c ← readChain fuel
    let isApart ← accept "&"
    let separated := isApart || (← accept ";") || match ← peek with
      | .lineEnd => true
      | _ => false
    skipLineEnds
    let c := if isApart then Command.background c else c
    if !separated || (← atClosing) then return [c] else return c :: (← readSequence fuel)

/-- A chain. -/
def readChain (fuel : Nat) : Reader Command :=
  match fuel with
  | 0 => refuse none
  | fuel + 1 => do readLinks fuel (← readPipeline fuel)

/-- What follows the first pipelines of a chain. -/
def readLinks (fuel : Nat) (first : Command) : Reader Command :=
  match fuel with
  | 0 => refuse none
  | fuel + 1 => do
    if ← accept "&&" then
      skipLineEnds
      readLinks fuel (.both first (← readPipeline fuel))
    else if ← accept "||" then
      skipLineEnds
      readLinks fuel (.either first (← readPipeline fuel))
    else return first

/-- A pipeline. -/
def readPipeline (fuel : Nat) : Reader Command :=
  match fuel with
  | 0 => refuse none
  | fuel + 1 => do
    if ← accept "!" then return .negated (← readPipeline fuel)
    else
      match ← readStages fuel with
      | [c] => return c
      | cs => return .pipeline cs

/-- The commands of a pipeline. -/
def readStages (fuel : Nat) : Reader (List Command) :=
  match fuel with
  | 0 => refuse none
  | fuel + 1 => do
    let c ← readCommand fuel
    if ← accept "|" then
      skipLineEnds
      return c :: (← readStages fuel)
    else return [c]

/-- A command with the redirections after it. -/
def readCommand (fuel : Nat) : Reader Command :=
  match fuel with
  | 0 => refuse none
  | fuel + 1 => do
    match ← readCompound? fuel with
    | some c =>
      let rs ← readRedirections (← get).length
      return if rs.isEmpty then c else .redirected c rs
    | none =>
      match ← definedName? with
      | some name =>
        let line ← currentLine
        advance
        advance
        expect ")"
        if isName name then
          skipLineEnds
          return .define name (← readCommand fuel)
        else throw (line, .badFunctionName)
      | none => if (← peek).reserved?.isSome then refuse none else readSimple

/-- The compound command that begins here, if one does. -/
def readCompound? (fuel : Nat) : Reader (Option Command) :=
  match fuel with
  | 0 => return none
  | fuel + 1 => do
    if ← accept "\x7b" then
      let body ← readSequence fuel
      expect "\x7d"
      return some (.sequence body)
    else if ← accept "(" then
      let body ← readSequence fuel
      expect ")"
      return some (.subshell (.sequence body))
    else if ← accept "if" then return some (← readConditional fuel)
    else if ← accept "while" then return some (← readLoop fuel false)
    else if ← accept "until" then return some (← readLoop fuel true)
    else if ← accept "for" then return some (← readEach fuel)
    else if ← accept "case" then return some (← readChoice fuel)
    else return none

/-- What follows `if` or `elif`. -/
def readConditional (fuel : Nat) : Reader Command :=
  match fuel with
  | 0 => refuse none
  | fuel + 1 => do
    let condition ← readSequence fuel
    expect "then"
    let body ← readSequence fuel
    let make := Command.conditional (.sequence condition) (.sequence body)
    if ← accept "elif" then return make (← readConditional fuel)
    else if ← accept "else" then
      let otherwise ← readSequence fuel
      expect "fi"
      return make (.sequence otherwise)
    else
      expect "fi"
      return make .nothing

/-- What stands between `do` and `done`. -/
def readBody (fuel : Nat) : Reader Command :=
  match fuel with
  | 0 => refuse none
  | fuel + 1 => do
    expect "do"
    let body ← readSequence fuel
    expect "done"
    return .sequence body

/-- What follows `while` or `until`. -/
def readLoop (fuel : Nat) (untilHolds : Bool) : Reader Command :=
  match fuel with
  | 0 => refuse none
  | fuel + 1 => do
    let condition ← readSequence fuel
    return .loop untilHolds (.sequence condition) (← readBody fuel)

/-- What follows `for`. -/
def readEach (fuel : Nat) : Reader Command :=
  match fuel with
  | 0 => refuse none
  | fuel + 1 => do
    let line ← currentLine
    match ← peek with
    | .word [.literal name] =>
      if isName name then
        advance
        skipLineEnds
        let words ← if ← accept "in" then readWords (← get).length
          else pure [[.parameter ['@'] true]]
        let _ ← accept ";"
        skipLineEnds
        return .each name words (← readBody fuel)
      else throw (line, .badLoopVariable)
    | _ => throw (line, .badLoopVariable)

/-- What follows `case`. -/
def readChoice (fuel : Nat) : Reader Command :=
  match fuel with
  | 0 => refuse none
  | fuel + 1 => do
    match ← peek with
    | .word subject =>
      advance
      skipLineEnds
      expect "in"
      skipLineEnds
      return .choice subject (← readCases fuel)
    | _ => refuse (some "word")

/-- The cases of a choice and its end. -/
def readCases (fuel : Nat) : Reader (List (List Word × Command)) :=
  match fuel with
  | 0 => refuse none
  | fuel + 1 => do
    if ← accept "esac" then return []
    else
      let _ ← accept "("
      let patterns ← readPatterns (← get).length
      expect ")"
      skipLineEnds
      let body ← if (← isAt ";;") || (← isAt "esac") then pure [] else readSequence fuel
      if ← accept ";;" then
        skipLineEnds
        return (patterns, .sequence body) :: (← readCases fuel)
      else
        expect "esac"
        return [(patterns, .sequence body)]

end

/-! ## 4. Lines -/

/-- The rest of the chains of a line. -/
def readChains (fuel : Nat) : Reader (List Command) :=
  match fuel with
  | 0 => refuse none
  | fuel + 1 => do
    match ← peek with
    | .lineEnd => advance; return []
    | .finish => return []
    | _ =>
      let c ← readChain (12 * (← get).length + 12)
      if ← accept "&" then return .background c :: (← readChains fuel)
      else if ← accept ";" then return c :: (← readChains fuel)
      else
        match ← peek with
        | .lineEnd => advance; return [c]
        | .finish => return [c]
        | _ => refuse none

/-- The chains of the first line. -/
def readLine : Reader (List Command) := do readChains ((← get).length + 1)

end GraphFeed.Shell
