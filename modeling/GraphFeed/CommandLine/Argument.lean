import GraphFeed.CommandLine.Flag
import GraphFeed.Text.Digit

/-!
# Arguments of the command line

An argument that begins with a dash is an option, or means to be one: `--long`, `--long=value`, an
unambiguous beginning of a long name, `-s`, or `-s` with its value or with more letters attached. It
is an ordinary word all the same if it is a dash alone, a negative number, or has a blank in it and is
no option. After `--` every argument is a word.
-/

namespace GraphFeed.CommandLine

/-! ## 1. Arguments -/

/-- An argument by its form. -/
inductive Argument
  | word (t : Text)
  /-- The first `--`. -/
  | divider
  /-- An option, written short or long, with what is attached to it. -/
  | option (f : Flag) (isShort : Bool) (attached : Option Text)
  /-- No option of this program. -/
  | unknown (t : Text)
deriving DecidableEq

/-- The text is a number with a minus sign before it; a line end may follow. -/
def isNegativeNumber (t : Text) : Bool :=
  match t with
  | [] => false
  | c :: t =>
    let t := if t.getLast? = some ('\n' : CodePoint) then t.dropLast else t
    let afterDigits := t.dropWhile CodePoint.isDecimal
    c = ('-' : CodePoint) &&
      match afterDigits with
      | [] => !t.isEmpty
      | d :: fraction =>
        d = ('.' : CodePoint) && !fraction.isEmpty && fraction.all CodePoint.isDecimal

/-- The text up to the first equals sign and, if there is one, what follows it. -/
def splitValue (t : Text) : Text × Option Text :=
  let name := t.takeWhile (· ≠ ('=' : CodePoint))
  match t.drop name.length with
  | [] => (name, none)
  | _ :: value => (name, some value)

/-! ## 2. Options -/

/-- The options whose long names begin with a text. -/
def Flag.beginningWith (start : Text) : List Flag := Flag.all.filter fun f => f.long.startsWith start

/-- The option that is named exactly, short or long. -/
def Flag.ofName? (t : Text) : Option (Flag × Bool) :=
  match t with
  | [_, c] =>
    match Flag.ofLetter? c with
    | some f => some (f, true)
    | none => none
  | t => (Flag.ofLong? t).map fun f => (f, false)

/-- A text with a dash before it that is no exact name: a word, or taken for an option. -/
def notAnOption (t : Text) : Argument :=
  if isNegativeNumber t || t.contains [' '] then .word t else .unknown t

/-- An argument before the divider. -/
def Argument.ofText (t : Text) : Except UsageFault Argument :=
  match t with
  | [] => .ok (.word t)
  | [_] => .ok (.word t)
  | c :: d :: rest =>
    if c ≠ ('-' : CodePoint) then .ok (.word t)
    else
      match Flag.ofName? t with
      | some (f, isShort) => .ok (.option f isShort none)
      | none =>
        let (name, value?) := splitValue t
        match (if value?.isSome then Flag.ofName? name else none) with
        | some (f, isShort) => .ok (.option f isShort value?)
        | none =>
          if d = ('-' : CodePoint) then
            match Flag.beginningWith name with
            | [] => .ok (notAnOption t)
            | [f] => .ok (.option f false value?)
            | fs => .error (.ambiguous t fs)
          else
            match Flag.ofLetter? d with
            | some f => .ok (.option f true (some rest))
            | none => .ok (notAnOption t)

/-- The arguments by their forms. -/
def classify : List Text → Except UsageFault (List Argument)
  | [] => .ok []
  | t :: rest =>
    if t = Text.ofString "--" then .ok (.divider :: rest.map .word)
    else do
      let a ← Argument.ofText t
      return a :: (← classify rest)

end GraphFeed.CommandLine
