import GraphFeed.CommandLine.Argument

/-!
# Requests

A command line asks for help, for the version, or for a run: a template made of its words, and values
for settings. `read` reads one from the left to the right, and what comes first decides, be it a fault
or the wish for help.

The words of the template stand together. Words that are separated from them by an option are not
recognised, and neither are unknown options; both are only refused when all the rest has been read.
-/

namespace GraphFeed.CommandLine

/-! ## 1. Options with their values -/

/-- An option and the value attached to it. -/
structure Use where
  flag : Flag
  attached : Option Text
deriving DecidableEq

/-- The options that short letters stand for, the first of them being known: further options without
    values, up to one that takes the rest as its value. -/
def unpack (f : Flag) : Text → Except UsageFault (List Use)
  | [] => .ok [⟨f, none⟩]
  | c :: rest =>
    if f.takesValue then .ok [⟨f, some (c :: rest)⟩]
    else
      match Flag.ofLetter? c with
      | none => .error (.valueUseless f (c :: rest))
      | some g => (unpack g rest).map fun uses => ⟨f, none⟩ :: uses

/-- The options of one argument. -/
def usesOf (f : Flag) (isShort : Bool) : Option Text → Except UsageFault (List Use)
  | none => .ok [⟨f, none⟩]
  | some value =>
    if f.takesValue then .ok [⟨f, some value⟩]
    else if isShort && !value.isEmpty then unpack f value
    else .error (.valueUseless f value)

/-- The last option of an argument still needs its value. -/
def needsValue (uses : List Use) : Bool :=
  match uses.getLast? with
  | some use => use.flag.takesValue && use.attached.isNone
  | none => false

/-- The options, the last of them with a value. -/
def withValue (uses : List Use) (value : Text) : List Use :=
  uses.dropLast ++ (uses.getLast?.map fun use => { use with attached := some value }).toList

/-- The value of an option by what is written for it. A divider that is attached to an option counts
    for nothing, and leaves an empty list. -/
def readValue (f : Flag) (t : Text) : Except UsageFault Value :=
  if t = Text.ofString "--" then .ok (.list [])
  else
    match f.operand with
    | .integer =>
      match readInteger? t with
      | some n => .ok (.int n)
      | none => .error (.badInteger f t)
    | .float =>
      match readFloat? t with
      | some x => .ok (.float x)
      | none => .error (.badFloat f t)
    | .outputMode =>
      if OutputMode.all.any fun m => (m.name : Text) = t then .ok (.text t) else .error (.badOutput t)
    | _ => .ok (.text t)

/-! ## 2. Reading -/

/-- The words of the template while they are read. -/
inductive Words
  | awaited
  | begun (words : List Text)
  | complete (words : List Text)
deriving DecidableEq

/-- The words read so far. -/
def Words.toList : Words → List Text
  | awaited => []
  | begun words | complete words => words

/-- Words are complete as soon as an option follows them. -/
def Words.close : Words → Words
  | awaited => awaited
  | begun words | complete words => complete words

/-- What has been read of a command line. -/
structure Progress where
  words : Words
  /-- Arguments that are not recognised. -/
  extras : List Text
  /-- The values given, null for options that were not. -/
  chosen : Flag → Value

/-- Why reading has come to an end before the end. -/
inductive Stop
  | fault (f : UsageFault)
  | help
  | version
deriving DecidableEq

namespace Progress

/-- Nothing has been read. -/
def start : Progress := ⟨.awaited, [], fun _ => .null⟩

/-- Adds a word of the template. -/
def addWord (p : Progress) (t : Text) : Progress :=
  match p.words with
  | .awaited => { p with words := .begun [t] }
  | .begun words => { p with words := .begun (words ++ [t]) }
  | .complete _ => { p with extras := p.extras ++ [t] }

/-- Chooses a value for an option; the last choice counts. -/
def choose (p : Progress) (f : Flag) (v : Value) : Progress :=
  { p with chosen := fun g => if g = f then v else p.chosen g }

/-- Carries out an option. The verbosity grows with each mention. -/
def use (p : Progress) (u : Use) : Except Stop Progress :=
  match u.flag, u.attached with
  | .help, _ => .error .help
  | .version, _ => .error .version
  | .verbose, _ =>
    let count : Int := match p.chosen .verbose with
      | .int n => n
      | _ => 0
    .ok (p.choose .verbose (.int (count + 1)))
  | f, some t =>
    match readValue f t with
    | .ok v => .ok (p.choose f v)
    | .error fault => .error (.fault fault)
  | f, none => .ok (p.choose f (.bool true))

/-- Carries out options one after the other. -/
def useAll (p : Progress) : List Use → Except Stop Progress
  | [] => .ok p
  | u :: us =>
    match p.use u with
    | .ok p => useAll p us
    | .error stop => .error stop

end Progress

/-- Reads arguments. -/
def readFrom (p : Progress) : List Argument → Except Stop Progress
  | [] => .ok p
  | .word t :: rest => readFrom (p.addWord t) rest
  | .divider :: rest => readFrom (p.addWord "--") rest
  | .unknown t :: rest =>
    readFrom { p with words := p.words.close, extras := p.extras ++ [t] } rest
  | .option f isShort attached :: rest =>
    let p := { p with words := p.words.close }
    match usesOf f isShort attached with
    | .error fault => .error (.fault fault)
    | .ok uses =>
      if needsValue uses then
        match rest with
        | .word value :: rest =>
          match p.useAll (withValue uses value) with
          | .ok p => readFrom p rest
          | .error stop => .error stop
        | _ => .error (.fault (.valueMissing ((uses.getLast?.map Use.flag).getD f)))
      else
        match p.useAll uses with
        | .ok p => readFrom p rest
        | .error stop => .error stop

/-! ## 3. Requests -/

/-- What a command line asks a run for. -/
structure Request where
  /-- The words of the template, without the first divider. -/
  words : List Text
  chosen : Flag → Value

namespace Request

/-- The template: the words with a blank between each two of them, without blanks at the ends. -/
def template (r : Request) : Text := Text.strip (Text.join " " r.words)

/-- The settings that the command line gives. -/
def layer (r : Request) : Layer :=
  Flag.all.filterMap fun f => f.setting?.map fun s => (.text s.name, r.chosen f)

/-- The name of the settings file. -/
def settingsFile (r : Request) : Option Text :=
  match r.chosen .config with
  | .text t => some t
  | _ => none

/-- Everything is logged, and not only what is of general interest. -/
def isVerbose (r : Request) : Bool :=
  match r.chosen .verbose with
  | .int n => decide (0 < n)
  | _ => false

end Request

/-- Reads a command line. -/
def read (arguments : List Text) : Except Stop Request :=
  match classify arguments with
  | .error fault => .error (.fault fault)
  | .ok arguments =>
    match readFrom .start arguments with
    | .error stop => .error stop
    | .ok p =>
      if p.extras.isEmpty then .ok ⟨p.words.toList.erase (Text.ofString "--"), p.chosen⟩
      else .error (.fault (.unrecognized p.extras))

end GraphFeed.CommandLine
