import GraphFeed.Shell.Arithmetic
import GraphFeed.Shell.Pattern
import GraphFeed.Shell.Session

/-!
# Expansion of words

A word is expanded to fields. Its pieces become fragments: firm text, which stays in its field, loose
text, which is cut into fields at blanks, and field ends. A word with nothing but empty loose text is no
field at all, whereas quotes around nothing make an empty one.

Expansion may change the state of the shell, by assignments and by the scripts whose output is asked for.

Part of the shell that the program is run with (`Shell.Runner`).
-/

namespace GraphFeed.Shell

/-- Gives the output of a script and the state after it. -/
abbrev Capture := Text → Session → Text × Session

/-! ## 1. Fragments -/

/-- A part of an expanded word. -/
inductive Fragment
  | firm (text : Text) (isQuoted : Bool)
  | loose (text : Text)
  | fieldEnd

/-- The text of fragments without regard to fields. -/
def plainText (fragments : List Fragment) : Text :=
  fragments.flatMap fun
    | .firm t _ => t
    | .loose t => t
    | .fieldEnd => [' ']

/-- The pattern that fragments make: what is quoted has no special meaning. -/
def patternText (fragments : List Fragment) : Text :=
  fragments.flatMap fun
    | .firm t true => t.flatMap fun c => ['\\', c]
    | .firm t false => t
    | .loose t => t
    | .fieldEnd => [' ']

/-- A blank at which loose text is cut. -/
def isFieldBlank (c : CodePoint) : Bool := isGap c || c = ('\n' : CodePoint)

/-- Adds loose text to the fields: the open one, if there is one, and those before it, the latest
    first. -/
def addLoose (open? : Option Text) (done : List Text) : Text → Option Text × List Text
  | [] => (open?, done)
  | c :: t =>
    if isFieldBlank c then addLoose none (open?.toList ++ done) t
    else addLoose (some (open?.getD [] ++ [c])) done t

/-- The fields of fragments after an open field and those before it. -/
def cutFields (open? : Option Text) (done : List Text) : List Fragment → List Text
  | [] => (open?.toList ++ done).reverse
  | .firm t _ :: rest => cutFields (some (open?.getD [] ++ t)) done rest
  | .loose t :: rest =>
    let (open?, done) := addLoose open? done t
    cutFields open? done rest
  | .fieldEnd :: rest => cutFields none (open?.toList ++ done) rest

/-- The fields of fragments. -/
def fieldsOf (fragments : List Fragment) : List Text := cutFields none [] fragments

/-! ## 2. Pieces -/

/-- Output as a value: without zeros, and without the line ends at its end. -/
def outputValue (t : Text) : Text :=
  ((t.filter fun c => c.val != 0).reverse.dropWhile fun c => c = ('\n' : CodePoint)).reverse

/-- A value as a fragment. -/
def valueFragment (isQuoted : Bool) (t : Text) : Fragment := if isQuoted then .firm t true else .loose t

/-- The arguments, each a field of its own. -/
def argumentFragments (isQuoted : Bool) (arguments : List Text) : List Fragment :=
  (arguments.map fun a => [valueFragment isQuoted a]).intersperse [.fieldEnd] |>.flatten

/-- The fragments of the parameter with a name. -/
def expandParameter (name : Text) (isQuoted : Bool) (s : Session) : List Fragment × Session :=
  if name = Text.ofString "@" ∨ (name = Text.ofString "*" ∧ isQuoted = false) then
    (argumentFragments isQuoted s.arguments, s)
  else
    match s.value? name with
    | some t => ([valueFragment isQuoted t], s)
    | none =>
      if s.refusesMissing && name != Text.ofString "*" then
        ([], s.giveUp (name ++ ": parameter not set"))
      else ([valueFragment isQuoted []], s)

mutual

/-- The fragments of a piece. -/
def expandPiece (capture : Capture) (p : Piece) (s : Session) : List Fragment × Session :=
  match p with
  | .literal t => ([.firm t false], s)
  | .quoted t => ([.firm t true], s)
  | .parameter name isQuoted => expandParameter name isQuoted s
  | .size name => ([.firm (Text.ofNat ((s.value? name).getD []).length) true], s)
  | .output script isQuoted =>
    let (t, s) := capture script s
    ([valueFragment isQuoted (outputValue t)], s)
  | .arithmetic expression =>
    let (fragments, s) := expandPieces capture expression s
    let text := plainText fragments
    match Arithmetic.evaluate s.value? text with
    | .ok n => ([.firm (Text.ofInt n) true], s)
    | .error fault => ([], s.giveUp (fault.message text))
  | .changed name change emptyToo word isQuoted =>
    let value? := match s.value? name with
      | some t => if emptyToo && t.isEmpty then none else some t
      | none => none
    match change with
    | .replacement =>
      match value? with
      | some t => ([valueFragment isQuoted t], s)
      | none => expandPieces capture word s
    | .assignment =>
      match value? with
      | some t => ([valueFragment isQuoted t], s)
      | none =>
        let (fragments, s) := expandPieces capture word s
        let t := plainText fragments
        ([valueFragment isQuoted t], s.assign name t)
    | .refusal =>
      match value? with
      | some t => ([valueFragment isQuoted t], s)
      | none =>
        let (fragments, s) := expandPieces capture word s
        let reason : Text := if word.isEmpty then "parameter not set" else plainText fragments
        ([], s.giveUp (.concat [name, ": ", reason]))
    | .alternative =>
      match value? with
      | some _ => expandPieces capture word s
      | none => ([valueFragment isQuoted []], s)
    | .trimming atEnd longest =>
      let (fragments, s) := expandPieces capture word s
      let t := Pattern.trim (patternText fragments) ((s.value? name).getD []) atEnd longest
      ([valueFragment isQuoted t], s)

/-- The fragments of pieces. -/
def expandPieces (capture : Capture) (ps : List Piece) (s : Session) : List Fragment × Session :=
  match ps with
  | [] => ([], s)
  | p :: ps =>
    let (first, s) := expandPiece capture p s
    if s.isGoing then
      let (rest, s) := expandPieces capture ps s
      (first ++ rest, s)
    else (first, s)

end

/-! ## 3. Words -/

/-- The fields of words. -/
def expandWords (capture : Capture) : List Word → Session → List Text × Session
  | [], s => ([], s)
  | w :: ws, s =>
    let (fragments, s) := expandPieces capture w s
    if s.isGoing then
      let (rest, s) := expandWords capture ws s
      (fieldsOf fragments ++ rest, s)
    else ([], s)

/-- The text of a word that is not cut into fields. -/
def expandWord (capture : Capture) (w : Word) (s : Session) : Text × Session :=
  let (fragments, s) := expandPieces capture w s
  (plainText fragments, s)

/-- The pattern that a word makes. -/
def expandPattern (capture : Capture) (w : Word) (s : Session) : Text × Session :=
  let (fragments, s) := expandPieces capture w s
  (patternText fragments, s)

end GraphFeed.Shell
