import GraphFeed.Yaml.Place

/-!
# Scalars as they are written

A plain scalar ends before a colon that a blank follows, before a comment, or at the end of its last
line; a scalar between quote marks ends at the closing one. Both may go over several lines, a line
break being folded into a blank. Between double quotes a backslash begins an escape, between single
ones a mark written twice stands for one.

A block scalar is the text of the indented lines behind its header, a bar or a `>` with what is to
become of the line ends at its end. Behind a `>` lines are joined by blanks.
-/

namespace GraphFeed.Yaml

/-! ## 1. Plain scalars -/

/-- What line breaks between two parts of a scalar stand for: a blank for a single one, and
    otherwise a line end for each but the first. -/
def folded (breaks : Nat) : Text :=
  if breaks = 1 then " " else List.replicate (breaks - 1) ('\n' : CodePoint)

/-- The blanks and line breaks with which a text begins: the blanks before the first line break,
    the number of line breaks, and the place behind them. -/
def Place.gap (p : Place) : Text × Nat × Place :=
  let blanks := p.rest.takeWhile fun c => c = (' ' : CodePoint)
  let p₁ := p.advance blanks.length
  match p₁.rest with
  | [] => (blanks, 0, p₁)
  | c :: _ =>
    if isBreak c then
      let white := p₁.rest.takeWhile fun c => c = (' ' : CodePoint) || isBreak c
      ([], white.countP isBreak, p₁.advance white.length)
    else (blanks, 0, p₁)

/-- The length of the piece of a plain scalar with which a text begins. -/
def plainLength (flow : Bool) : Text → Nat
  | [] => 0
  | c :: t =>
    if isSpace c then 0
    else if c = ':' ∧ (atSpace t ∨ (flow ∧ t.head?.any isFlowSign)) then 0
    else if flow ∧ (isFlowSign c ∨ c = '?') then 0
    else plainLength flow t + 1

/-- Reads the rest of a plain scalar, `before` being what was read. Lines go on from column
    `indent` on. -/
def readPlain (flow : Bool) (indent : Nat) : Nat → Text → Reader Text
  | 0, _ => malformed
  | fuel + 1, before => do
    let p ← get
    let length := plainLength flow p.rest
    if length = 0 || p.rest.head? = some ('#' : CodePoint) then return before
    let piece := p.rest.take length
    let p := p.advance length
    let (blanks, breaks, q) := p.gap
    set q
    if (blanks.isEmpty && breaks = 0) || q.rest.head? = some ('#' : CodePoint)
        || (!flow && q.column < indent) || (0 < breaks && q.atEnd) then
      return before ++ piece
    readPlain flow indent fuel (before ++ piece ++ (if 0 < breaks then folded breaks else blanks))

/-- Takes away a gap that was read behind the last piece. -/
def dropGap (t : Text) : Text :=
  (t.reverse.dropWhile fun c => c = (' ' : CodePoint) || isBreak c).reverse

/-! ## 2. Quoted scalars -/

/-- The value of a hexadecimal number of exactly `n` digits at the beginning of a text. -/
def hexNumber? (n : Nat) (t : Text) : Option CodePoint := do
  let digits := t.take n
  if digits.length ≠ n then none
  let value ← digits.foldl (fun v c => do return 16 * (← v) + (← c.hex?)) (some 0)
  if value < 0x110000 then some (.ofNat value) else none

/-- The code point that an escape of one letter stands for. -/
def shortEscape? (c : CodePoint) : Option CodePoint :=
  if c = '0' then some '\x00'
  else if c = 'a' then some '\x07'
  else if c = 'b' then some '\x08'
  else if c = 't' ∨ c = '\t' then some '\t'
  else if c = 'n' then some '\n'
  else if c = 'v' then some '\x0b'
  else if c = 'f' then some '\x0c'
  else if c = 'r' then some '\r'
  else if c = 'e' then some '\x1b'
  else if c = ' ' ∨ c = '"' ∨ c = '\\' ∨ c = '/' then some c
  else if c = 'N' then some (.ofNat 0x85)
  else if c = '_' then some (.ofNat 0xA0)
  else if c = 'L' then some (.ofNat 0x2028)
  else if c = 'P' then some (.ofNat 0x2029)
  else none

/-- Reads the line breaks inside quotes, behind blanks that do not count: how many there are. A mark
    of a document must not stand there. -/
def readBreaks : Nat → Reader Nat
  | 0 => malformed
  | fuel + 1 => do
    let p ← get
    match p.rest with
    | [] => malformed
    | c :: _ =>
      if isBreak c then
        set p.next
        if p.next.atMark then malformed
        return (← readBreaks fuel) + 1
      else if c = ' ' ∨ c = '\t' then
        set p.next
        readBreaks fuel
      else return 0

/-- Reads a scalar between quote marks, the first of which is gone. Blanks are kept unless a line
    break follows. -/
def readQuoted (double : Bool) : Nat → Text → Reader Text
  | 0, _ => malformed
  | fuel + 1, before => do
    let p ← get
    match p.rest with
    | [] => malformed
    | c :: t =>
      if double ∧ c = '"' then
        set p.next
        return before
      else if !double ∧ c = '\'' then
        if t.head? = some ('\'' : CodePoint) then
          set (p.advance 2)
          readQuoted double fuel (before ++ [c])
        else
          set p.next
          return before
      else if isSpace c then
        let blanks := p.rest.takeWhile fun c => c = (' ' : CodePoint) || c = '\t'
        let q := p.advance blanks.length
        set q
        if q.rest.isEmpty then malformed
        else if q.rest.head?.any isBreak then
          let breaks ← readBreaks (fuel + q.rest.length)
          readQuoted double fuel (before ++ folded breaks)
        else readQuoted double fuel (before ++ blanks)
      else if double ∧ c = '\\' then
        match t with
        | [] => malformed
        | e :: after =>
          if isBreak e then
            set (p.advance 2)
            let breaks ← readBreaks (fuel + after.length + 1)
            readQuoted double fuel (before ++ List.replicate breaks ('\n' : CodePoint))
          else
            let width := if e = 'x' then 2 else if e = 'u' then 4 else if e = 'U' then 8 else 0
            if width = 0 then
              match shortEscape? e with
              | some d =>
                set (p.advance 2)
                readQuoted double fuel (before ++ [d])
              | none => malformed
            else
              match hexNumber? width after with
              | some d =>
                set (p.advance (2 + width))
                readQuoted double fuel (before ++ [d])
              | none => malformed
      else
        set p.next
        readQuoted double fuel (before ++ [c])

/-! ## 3. Block scalars -/

/-- What becomes of the line ends at the end of a block scalar. -/
inductive Chomping
  /-- None of them stays. -/
  | strip
  /-- The first of them stays. -/
  | clip
  /-- All of them stay. -/
  | keep
deriving DecidableEq

/-- What a sign in the header of a block scalar says of the line ends at the end. -/
def Chomping.ofSign? (c : CodePoint) : Option Chomping :=
  if c = '-' then some .strip else if c = '+' then some .keep else none

/-- What a digit in the header of a block scalar says of the indentation of its lines. -/
def indentation? (c : CodePoint) : Option Nat := if c.between '1' '9' then some c.digit else none

/-- What the header of a block scalar says, the sign it begins with being gone. -/
def blockHeader? (header : Text) : Option (Chomping × Option Nat) :=
  match header with
  | [] => some (.clip, none)
  | [c] =>
    match Chomping.ofSign? c, indentation? c with
    | some chomping, _ => some (chomping, none)
    | none, some indent => some (.clip, some indent)
    | none, none => none
  | [c, d] =>
    match Chomping.ofSign? c, indentation? d, indentation? c, Chomping.ofSign? d with
    | some chomping, some indent, _, _ | _, _, some indent, some chomping =>
      some (chomping, some indent)
    | _, _, _, _ => none
  | _ => none

/-- Passes over the blanks and line breaks before the first line of a block scalar: how many line
    breaks there are, and the column behind the blanks of the most indented line. -/
def readIndentation : Nat → Reader (Nat × Nat)
  | 0 => malformed
  | fuel + 1 => do
    let p ← get
    match p.rest with
    | [] => return (0, 0)
    | c :: _ =>
      if isBreak c then
        set p.next
        let (breaks, column) ← readIndentation fuel
        return (breaks + 1, column)
      else if c = ' ' then
        set p.next
        let (breaks, column) ← readIndentation fuel
        return (breaks, max (p.column + 1) column)
      else return (0, 0)

/-- Passes over line breaks and the blanks before column `indent`: how many line breaks there
    are. -/
def readEmptyLines (indent : Nat) : Nat → Reader Nat
  | 0 => malformed
  | fuel + 1 => do
    let p ← get
    match p.rest with
    | [] => return 0
    | c :: _ =>
      if isBreak c then
        set p.next
        return (← readEmptyLines indent fuel) + 1
      else if c = ' ' ∧ p.column < indent then
        set p.next
        readEmptyLines indent fuel
      else return 0

/-- Reads the lines of a block scalar, `breaks` being the number of line breaks before the next
    one: the text, the line end behind it, and the number of line breaks behind that. -/
def readLines (isFolded : Bool) (indent : Nat) :
    Nat → Text → Text → Nat → Reader (Text × Text × Nat)
  | 0, _, _, _ => malformed
  | fuel + 1, before, lineEnd, breaks => do
    let p ← get
    if p.rest.isEmpty || p.column ≠ indent then return (before, lineEnd, breaks)
    let line := p.rest.takeWhile fun c => !isBreak c
    let q := p.advance line.length
    let text := before ++ List.replicate breaks ('\n' : CodePoint) ++ line
    match q.rest with
    | [] =>
      set q
      return (text, [], 0)
    | _ :: _ =>
      set q.next
      let breaks ← readEmptyLines indent (q.rest.length + 1)
      let r ← get
      let isGap (t : Text) : Bool := t.head?.any fun c => c = (' ' : CodePoint) || c = '\t'
      let joint : Text :=
        if r.rest.isEmpty || r.column ≠ indent then []
        else if isFolded && !isGap line && !isGap r.rest then if breaks = 0 then " " else []
        else "\n"
      readLines isFolded indent fuel (text ++ joint) "\n" breaks

/-- Reads a block scalar in a block that is indented deeper than `parent`, the sign that it begins
    with being gone. -/
def readBlockScalar (isFolded : Bool) (parent : Int) : Reader Text := do
  let p ← get
  let header := p.rest.takeWhile fun c => !isSpace c
  match blockHeader? header with
  | none => malformed
  | some (chomping, indent?) =>
    set (p.advance header.length)
    skipBlanks
    let q ← get
    let comment := q.rest.takeWhile fun c => !isBreak c
    if !comment.isEmpty && comment.head? ≠ some ('#' : CodePoint) then malformed
    set (q.advance comment.length).next
    let least := max (parent + 1).toNat 1
    let (breaks, indent) ←
      match indent? with
      | some indent => do
        let indent := least + indent - 1
        pure (← readEmptyLines indent (p.rest.length + 1), indent)
      | none => do
        let (breaks, column) ← readIndentation (p.rest.length + 1)
        pure (breaks, max least column)
    let (text, lineEnd, breaks) ← readLines isFolded indent (p.rest.length + 1) [] [] breaks
    match chomping with
    | .strip => return text
    | .clip => return text ++ lineEnd
    | .keep => return text ++ lineEnd ++ List.replicate breaks ('\n' : CodePoint)

end GraphFeed.Yaml
