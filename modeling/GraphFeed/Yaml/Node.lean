import GraphFeed.Yaml.Written
import GraphFeed.Yaml.Scalar

/-!
# Nodes on their own

An alias, a scalar and a collection in brackets can stand anywhere, also as a key: `readInline` reads
one. `mapping?` makes a mapping of entries and carries out the merge key `<<`.
-/

namespace GraphFeed.Yaml

/-! ## 1. Nodes and mappings -/

/-- A node: a value, or the plain scalar `<<`, which as a key asks for a merge. -/
inductive Node
  | value (v : Value)
  | merge

/-- The value of a node that is no key. -/
def Node.value? : Node → Option Value
  | .value v => some v
  | .merge => none

/-- The node of a plain scalar. -/
def plainNode? (t : Text) : Option Node :=
  if t = Text.ofString "<<" then some .merge else (plainValue? t).map .value

/-- The entries that a merge key brings in: those of a mapping, or those of the mappings of a list,
    of which an earlier one counts more. -/
def mergedEntries? : Value → Option (List (Value × Value))
  | .mapping entries => some entries
  | .list items =>
    items.foldr (fun item rest => do
      match item with
      | .mapping entries => return (← rest) ++ entries
      | _ => none) (some [])
  | _ => none

/-- The mapping of some entries. What is merged comes first; a list or a mapping is no key. -/
def mapping? (entries : List (Node × Value)) : Option Value := do
  let merged ← entries.foldl (fun found (key, value) => do
    let found ← found
    match key with
    | .merge => return found ++ (← mergedEntries? value)
    | .value _ => return found) (some [])
  let own ← entries.filterMapM fun (key, value) =>
    match key with
    | .merge => some none
    | .value (.list _) | .value (.mapping _) => none
    | .value key => some (some (key, value))
  return .mapping ((merged ++ own).foldl (fun m (key, value) => Value.insertEntry key value m) [])

/-! ## 2. Anchors -/

/-- Reads the name of an anchor or an alias, the sign before which is gone. -/
def readName : Reader Text := do
  let p ← get
  let isNameChar (c : CodePoint) : Bool :=
    c.isDigit || c.between 'a' 'z' || c.between 'A' 'Z' || c = '-' || c = '_'
  let name := p.rest.takeWhile isNameChar
  let after := p.rest.drop name.length
  let ends : Bool := atSpace after || after.head?.any fun (c : CodePoint) =>
    c = '?' || c = ':' || c = ',' || c = ']' || c = '\x7d' || c = '%' || c = '@' || c = '\x60'
  if name.isEmpty || !ends then malformed
  set (p.advance name.length)
  return name

/-- Gives a name to a value. A name is given once. -/
def bindAnchor (name : Text) (node : Node) : Reader Unit := do
  let p ← get
  match node.value? with
  | none => malformed
  | some value =>
    if p.anchors.any fun a => a.1 == name then malformed
    set { p with anchors := (name, value) :: p.anchors }

/-- The value of an alias. -/
def aliasValue (name : Text) : Reader Node := do
  match (← get).anchors.find? fun a => a.1 == name with
  | some (_, value) => return .value value
  | none => malformed

/-- Whether a colon that ends a key stands at the place, blanks before it aside. -/
def atColon (flow : Bool) : Reader Bool := do
  skipBlanks
  match (← get).rest with
  | c :: t => return c = (':' : CodePoint) && (flow || atSpace t)
  | [] => return false

/-! ## 3. Flow collections -/

mutual

/-- Reads a node that begins with a sign of its own: an alias, a scalar or a flow collection. -/
def readInline (flow : Bool) (indent : Nat) : Nat → Reader Node
  | 0 => malformed
  | fuel + 1 => do
    let p ← get
    match p.rest with
    | [] => malformed
    | c :: _ =>
      if c = '*' then
        advance 1
        aliasValue (← readName)
      else if c = '&' then
        advance 1
        let name ← readName
        skip
        let node ← readInline flow indent fuel
        bindAnchor name node
        return node
      else if c = '"' ∨ c = '\'' then
        advance 1
        return .value (.text (← readQuoted (c = ('"' : CodePoint)) (p.rest.length + 1) []))
      else if c = '[' then
        advance 1
        return .value (.list (← readFlowItems fuel []))
      else if c = '\x7b' then
        advance 1
        match mapping? (← readFlowEntries fuel []) with
        | some value => return .value value
        | none => malformed
      else if startsPlain flow p.rest then
        let scalar ← readPlain flow indent (p.rest.length + 1) []
        match plainNode? (dropGap scalar) with
        | some node => return node
        | none => malformed
      else malformed

/-- Reads the value of a key in a flow collection, the colon being gone: it may be missing. -/
def readFlowValue : Nat → Reader Value
  | 0 => malformed
  | fuel + 1 => do
    skip
    match ← peek with
    | none => malformed
    | some c =>
      if c = ',' ∨ c = ']' ∨ c = '\x7d' then return .null
      else
        match (← readInline true 0 fuel).value? with
        | some value => return value
        | none => malformed

/-- Reads the items of a flow list, `before` being those already read. An item may be a single
    entry of a mapping. -/
def readFlowItems : Nat → List Value → Reader (List Value)
  | 0, _ => malformed
  | fuel + 1, before => do
    skip
    match ← peek with
    | none => malformed
    | some c =>
      if c = ']' then
        advance 1
        return before
      else
        let key ← if c = ':' then pure (Node.value .null) else readInline true 0 fuel
        skip
        let item ←
          if (← peek) = some (':' : CodePoint) then do
            advance 1
            let value ← readFlowValue fuel
            match mapping? [(key, value)] with
            | some entry => pure entry
            | none => malformed
          else
            match key.value? with
            | some value => pure value
            | none => malformed
        skip
        match ← peek with
        | none => malformed
        | some d =>
          if d = ',' then
            advance 1
            readFlowItems fuel (before ++ [item])
          else if d = ']' then
            advance 1
            return before ++ [item]
          else malformed

/-- Reads the entries of a flow mapping, `before` being those already read. -/
def readFlowEntries : Nat → List (Node × Value) → Reader (List (Node × Value))
  | 0, _ => malformed
  | fuel + 1, before => do
    skip
    match ← peek with
    | none => malformed
    | some c =>
      if c = '\x7d' then
        advance 1
        return before
      else
        let key ← if c = ':' then pure (Node.value .null) else readInline true 0 fuel
        skip
        let value ←
          if (← peek) = some (':' : CodePoint) then do
            advance 1
            readFlowValue fuel
          else pure .null
        skip
        match ← peek with
        | none => malformed
        | some d =>
          if d = ',' then
            advance 1
            readFlowEntries fuel (before ++ [(key, value)])
          else if d = '\x7d' then
            advance 1
            return before ++ [(key, value)]
          else malformed

end

end GraphFeed.Yaml
