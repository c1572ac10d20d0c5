import GraphFeed.Value.Basic

/-!
# Places in a document

A document is read from left to right. A `Place` is what is left of the text, with its line and
column, because indentation tells the blocks apart, and with the values of the anchors so far. A
`Reader` reads something at a place and moves the place on.
-/

namespace GraphFeed.Yaml

/-! ## 1. Characters -/

/-- A line break. -/
def isBreak (c : CodePoint) : Bool :=
  c.val = 0x0A || c.val = 0x0D || c.val = 0x85 || c.val = 0x2028 || c.val = 0x2029

/-- A blank or a line break. -/
def isSpace (c : CodePoint) : Bool := c = ' ' || c = '\t' || isBreak c

/-- The text is at its end, or a blank or a line break comes next. -/
def atSpace (t : Text) : Bool := t.head?.all isSpace

/-- A code point that a document may hold. -/
def isAllowed (c : CodePoint) : Bool :=
  let n := c.val
  n = 9 || n = 10 || n = 13 || (0x20 ≤ n && n ≤ 0x7E) || n = 0x85 || (0xA0 ≤ n && n ≤ 0xD7FF)
    || (0xE000 ≤ n && n ≤ 0xFFFD) || 0x10000 ≤ n

/-- A sign of flow collections. -/
def isFlowSign (c : CodePoint) : Bool :=
  c = ',' || c = '[' || c = ']' || c = '\x7b' || c = '\x7d'

/-- A plain scalar may begin here. -/
def startsPlain (flow : Bool) (t : Text) : Bool :=
  match t with
  | [] => false
  | c :: after =>
    if isSpace c then false
    else if c = '-' then !atSpace after
    else if c = '?' ∨ c = ':' then !flow && !atSpace after
    else
      !(isFlowSign c || c = '#' || c = '&' || c = '*' || c = '!' || c = '|' || c = '>' || c = '\''
        || c = '"' || c = '%' || c = '@' || c = '\x60')

/-! ## 2. Places -/

/-- A place in the text, and the values of the anchors before it. -/
structure Place where
  rest : Text
  line : Nat
  column : Nat
  anchors : List (Text × Value)

/-- Reads something at a place, which it moves on; `none` where the text is malformed. -/
abbrev Reader := StateT Place Option

/-- The place behind one code point. -/
def Place.next (p : Place) : Place :=
  match p.rest with
  | [] => p
  | c :: t =>
    if isBreak c then { p with rest := t, line := p.line + 1, column := 0 }
    else { p with rest := t, column := p.column + 1 }

/-- The place behind `n` code points. -/
def Place.advance (p : Place) : Nat → Place
  | 0 => p
  | n + 1 => p.next.advance n

/-- A mark of a document stands at the place: three hyphens, or three points. -/
def Place.atMark (p : Place) : Bool :=
  p.column = 0 && (p.rest.startsWith "---" || p.rest.startsWith "...") && atSpace (p.rest.drop 3)

/-- The place is the end of a document. -/
def Place.atEnd (p : Place) : Bool := p.rest.isEmpty || p.atMark

/-- The place behind `t`, of which blanks, comments and line breaks are passed over. -/
def skipFrom (line column : Nat) (comment : Bool) : Text → Nat × Nat × Text
  | [] => (line, column, [])
  | c :: t =>
    if isBreak c then skipFrom (line + 1) 0 false t
    else if comment || c = ' ' then skipFrom line (column + 1) comment t
    else if c = '#' then skipFrom line (column + 1) true t
    else (line, column, c :: t)

/-- Passes over blanks, comments and line breaks. -/
def skip : Reader Unit := modify fun p =>
  let (line, column, rest) := skipFrom p.line p.column false p.rest
  { p with rest, line, column }

/-- Passes over blanks. -/
def skipBlanks : Reader Unit := modify fun p =>
  p.advance (p.rest.takeWhile fun c => c = (' ' : CodePoint)).length

/-- The code point at the place. -/
def peek : Reader (Option CodePoint) := return (← get).rest.head?

/-- Passes over `n` code points. -/
def advance (n : Nat) : Reader Unit := modify fun p => p.advance n

/-- Refuses the text. -/
def malformed {α : Type} : Reader α := fun _ => none

end GraphFeed.Yaml
