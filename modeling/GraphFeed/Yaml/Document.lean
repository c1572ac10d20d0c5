import GraphFeed.Text.Line
import GraphFeed.Yaml.Node

/-!
# Documents

`Yaml.read` makes a value of a text that holds one document. What it knows of the format is what
settings are written in: block mappings and lists, told by indentation; flow mappings and lists in
brackets; plain and quoted scalars, which may go over several lines, and block scalars; comments;
the marks `---` and `...`; anchors, aliases and the merge key `<<`. A tag, an explicit key or a
directive is not known, and a text with one is refused like a malformed one.

A tab may stand in quotes, in comments and in block scalars only.

It is the `Loader` that the program runs with. What is said of layers of settings is said of every
loader.
-/

namespace GraphFeed.Yaml

/-! ## 1. Blocks -/

mutual

/-- Reads a node in a block whose lines are indented deeper than `parent`, a column or -1. A block
    may begin where only indentation stands before the place (`fresh`). -/
def readBlock (parent : Int) (fresh : Bool) : Nat → Reader Value
  | 0 => malformed
  | fuel + 1 => do
    let p ← get
    if p.atEnd || (p.column : Int) ≤ parent then return .null
    match p.rest with
    | [] => return .null
    | c :: after =>
      if c = '-' ∧ atSpace after then
        if fresh then return .list (← readItems p.column fuel []) else malformed
      else if c = '|' ∨ c = '>' then
        advance 1
        return .text (← readBlockScalar (c = ('>' : CodePoint)) parent)
      else
        if c = '&' then
          advance 1
          let name ← readName
          skip
          let q ← get
          if q.line ≠ p.line then
            let isList : Bool := !fresh && (q.column : Int) = parent && !q.atEnd
              && q.rest.head? = some ('-' : CodePoint) && atSpace (q.rest.drop 1)
            let value ←
              if isList then pure (Value.list (← readItems q.column fuel []))
              else readBlock parent true fuel
            bindAnchor name (.value value)
            return value
          else set p
        let node ← readInline false (parent + 1).toNat fuel
        let q ← get
        if ← atColon false then
          if fresh && q.line = p.line then
            match mapping? (← readEntries p.column node fuel []) with
            | some value => return value
            | none => malformed
          else malformed
        else
          match node.value? with
          | some value => return value
          | none => malformed

/-- Reads the items of a block list at a column, `before` being those already read. -/
def readItems (column : Nat) : Nat → List Value → Reader (List Value)
  | 0, _ => malformed
  | fuel + 1, before => do
    advance 1
    skip
    let item ← readBlock column true fuel
    skip
    let p ← get
    match p.rest with
    | c :: after =>
      if !p.atEnd && p.column = column && c = '-' && atSpace after then
        readItems column fuel (before ++ [item])
      else return before ++ [item]
    | [] => return before ++ [item]

/-- Reads the entries of a block mapping at a column, from the colon behind a key on; `before` are
    those already read. A list may stand at the column of the key whose value it is. -/
def readEntries (column : Nat) (key : Node) :
    Nat → List (Node × Value) → Reader (List (Node × Value))
  | 0, _ => malformed
  | fuel + 1, before => do
    let colon ← get
    advance 1
    skip
    let p ← get
    let isList : Bool := p.column = column && p.rest.head? = some ('-' : CodePoint)
      && atSpace (p.rest.drop 1)
    let value ←
      if p.line = colon.line then readBlock column false fuel
      else if isList && !p.atEnd then pure (Value.list (← readItems column fuel []))
      else readBlock column true fuel
    let entries := before ++ [(key, value)]
    skip
    let q ← get
    if q.atEnd || q.column < column then return entries
    else if q.column = column ∧ q.line ≠ colon.line then
      if q.rest.head? = some ('-' : CodePoint) ∧ atSpace (q.rest.drop 1) then malformed
      let key ← readInline false (column + 1) fuel
      let r ← get
      if (← atColon false) && r.line = q.line then readEntries column key fuel entries
      else malformed
    else malformed

end

/-! ## 2. Documents -/

/-- Reads the only document of a text. -/
def readDocument (fuel : Nat) : Reader Value := do
  skip
  let p ← get
  let started : Bool := p.atMark && p.rest.startsWith "---"
  if started then
    advance 3
    skip
  let q ← get
  if q.rest.head? = some ('%' : CodePoint) ∧ q.column = 0 then malformed
  let value ← readBlock (-1) (!started || q.line ≠ p.line) fuel
  skip
  let r ← get
  if r.atMark && r.rest.startsWith "..." then
    advance 3
    skip
  if (← get).rest.isEmpty then return value else malformed

/-- The value of a text that holds a document; `none` if it is malformed. An empty text holds
    null. -/
def read (t : Text) : Option Value :=
  let t := if t.head? = some (CodePoint.ofNat 0xFEFF) then t.drop 1 else t
  if !t.all isAllowed then none
  else
    let t := Text.unifyNewlines t
    (readDocument (4 * t.length + 16) ⟨t, 0, 0, []⟩).map (·.1)

end GraphFeed.Yaml
