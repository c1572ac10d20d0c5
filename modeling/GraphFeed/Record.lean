import GraphFeed.Error

/-!
# Records

A line of input is split into the fields of a record. The format is that of delimiter separated
values: a field that begins with the quote mark extends to the closing one, and a quote mark
written twice inside it stands for one; what follows the closing mark is part of the field as it
is; a quoted field that is not closed ends with the line. Outside quotes a line end ends the
record, and only line ends may follow it.

The reader is a machine over `Splitter.Mode`; `Splitter.step` reads one code point and
`Splitter.run` a whole line. Where the delimiter is the quote mark itself, no field is quoted.
-/

namespace GraphFeed

/-- The fields of a line. -/
abbrev Record := List Text

/-- The marks of the record format. -/
structure Splitter where
  delimiter : CodePoint
  quote : CodePoint
deriving DecidableEq

namespace Splitter

/-- A longer field is refused. -/
def fieldLimit : Nat := 131072

/-! ## 1. The reader -/

/-- Where the reader stands. -/
inductive Mode
  | recordStart
  | fieldStart
  /-- In a field that is not quoted, or behind the closing mark of one that was. -/
  | plain
  | quoted
  /-- Behind a quote mark inside quotes: it closes the field or is the first of two. -/
  | quoteSeen
  | lineEnded
deriving DecidableEq, Repr

/-- The fields read so far and the one being read, each with its last item first. -/
structure State where
  mode : Mode
  field : Text
  fields : List Text

/-- The state before a line. -/
def State.start : State := ⟨.recordStart, [], []⟩

/-- A line end, in either of its two forms. -/
def isLineEnd (c : CodePoint) : Bool := c = '\n' || c = '\r'

/-- Ends the field being read. -/
def State.save (s : State) (mode : Mode) : Except SplitFault State :=
  if fieldLimit < s.field.length then .error (.fieldTooLong fieldLimit)
  else .ok ⟨mode, [], s.field.reverse :: s.fields⟩

/-- Adds a code point to the field being read. -/
def State.push (s : State) (c : CodePoint) (mode : Mode) : State := ⟨mode, c :: s.field, s.fields⟩

/-- Reads a code point where a field begins. -/
def stepFieldStart (delimiter : CodePoint) (quote? : Option CodePoint) (s : State) (c : CodePoint) :
    Except SplitFault State :=
  if isLineEnd c then s.save .lineEnded
  else if some c = quote? then .ok { s with mode := .quoted }
  else if c = delimiter then s.save .fieldStart
  else .ok (s.push c .plain)

/-- Reads one code point. -/
def step (delimiter : CodePoint) (quote? : Option CodePoint) (s : State) (c : CodePoint) :
    Except SplitFault State :=
  match s.mode with
  | .recordStart =>
    if isLineEnd c then .ok { s with mode := .lineEnded }
    else stepFieldStart delimiter quote? s c
  | .fieldStart => stepFieldStart delimiter quote? s c
  | .plain =>
    if isLineEnd c then s.save .lineEnded
    else if c = delimiter then s.save .fieldStart
    else .ok (s.push c .plain)
  | .quoted =>
    if some c = quote? then .ok { s with mode := .quoteSeen } else .ok (s.push c .quoted)
  | .quoteSeen =>
    if some c = quote? then .ok (s.push c .quoted)
    else if c = delimiter then s.save .fieldStart
    else if isLineEnd c then s.save .lineEnded
    else .ok (s.push c .plain)
  | .lineEnded => if isLineEnd c then .ok s else .error .textAfterLineEnd

/-- Reads the code points of a text. -/
def run (delimiter : CodePoint) (quote? : Option CodePoint) (s : State) :
    Text → Except SplitFault State
  | [] => .ok s
  | c :: t =>
    match step delimiter quote? s c with
    | .error fault => .error fault
    | .ok s' => run delimiter quote? s' t

/-- Ends the line: the field being read is the last one. -/
def State.finish (s : State) : Except SplitFault Record :=
  match s.mode with
  | .recordStart | .lineEnded => .ok s.fields.reverse
  | _ => (s.save .lineEnded).map fun s' => s'.fields.reverse

/-- The fields of a line. -/
def fields (delimiter : CodePoint) (quote? : Option CodePoint) (line : Text) :
    Except SplitFault Record :=
  match run delimiter quote? .start line with
  | .error fault => .error fault
  | .ok s => s.finish

@[simp] theorem run_nil (delimiter : CodePoint) (quote? : Option CodePoint) (s : State) :
    run delimiter quote? s [] = .ok s := rfl

theorem run_append (delimiter : CodePoint) (quote? : Option CodePoint) (s : State) (a b : Text) :
    run delimiter quote? s (a ++ b) =
      (run delimiter quote? s a).bind fun s' => run delimiter quote? s' b := by
  induction a generalizing s with
  | nil => rfl
  | cons c a ih =>
    simp only [List.cons_append, run]
    cases step delimiter quote? s c with
    | error fault => rfl
    | ok s' => exact ih s'

/-! ## 2. Splitting -/

/-- Splits a line at a delimiter that takes the place of the splitter's own. An empty line has no
    fields. -/
def splitAt (s : Splitter) (delimiter : CodePoint) (line : Text) : Except Error Record :=
  if line.isEmpty then .ok []
  else
    let quote? := if delimiter = s.quote then none else some s.quote
    (fields delimiter quote? line).mapError fun fault => .splitting fault line

/-- Splits a line at the splitter's delimiter. -/
def split (s : Splitter) (line : Text) : Except Error Record := s.splitAt s.delimiter line

/-- Splits a line with an override of the delimiter given as a text: none or an empty one leaves
    the splitter's own, and one of several code points is refused. -/
def splitWith (s : Splitter) (delimiter : Option Text) (line : Text) : Except Error Record :=
  match delimiter with
  | none | some [] => s.split line
  | some [d] => s.splitAt d line
  | some _ => if line.isEmpty then .ok [] else .error .delimiterLength

/-- The only code point of a text that is to be a mark. -/
def mark (which : RecordMark) (t : Text) : Except Error CodePoint :=
  match t with
  | [c] => .ok c
  | t => .error (.recordMark which t)

/-- The splitter with the given marks; both must be single code points. -/
def ofTexts (delimiter quote : Text) : Except Error Splitter :=
  match mark .delimiter delimiter, mark .quote quote with
  | .ok d, .ok q => .ok ⟨d, q⟩
  | .error e, _ => .error e
  | .ok _, .error e => .error e

/-- The marks used where nothing else is said: fields are separated by blanks and quoted by double
    quotes. -/
def standard : Splitter := ⟨' ', '"'⟩

end Splitter

/-- A mark that is no text, by its kind. That it is none is noticed when something is split. -/
structure OddMark where
  mark : RecordMark
  kind : Value.Kind
deriving DecidableEq

end GraphFeed
