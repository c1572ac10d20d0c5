import GraphFeed.Instruction.Basic

/-!
# Clauses of a statement

A statement is a list of clauses, and its query text has a line for each. The clauses are data;
`Clause.text` is the only place where they become text. Names of labels, types and properties stand
between backticks, a backtick in a name being written twice (`quoteIdentifier`). Values never stand
in a clause: it refers to them by parameters, the names of which are made of an alias and the
place of the value (`Parameter.text`), and so depend on no name and no value.
-/

namespace GraphFeed

/-- A name between backticks. -/
def quoteIdentifier (name : Text) : Text :=
  .concat ["\x60", name.replace '\x60' "\x60\x60", "\x60"]

/-! ## 1. Parameters -/

/-- What a statement calls the entities of an instruction: the first node, the second, and the
    relationship. -/
inductive Alias
  | first
  | second
  | relationship
deriving DecidableEq, Repr

/-- The alias as it is written. -/
def Alias.name : Alias → String
  | .first => "a"
  | .second => "b"
  | .relationship => "r"

/-- The places of values among the parameters of one entity. -/
inductive Slot
  /-- The id. -/
  | id
  /-- The n-th property an entity without id is merged on. -/
  | key (n : Nat)
  /-- The value of the n-th assignment. -/
  | value (n : Nat)
  /-- The default of the n-th assignment. -/
  | default (n : Nat)
deriving DecidableEq, Repr

/-- A slot as it is written. -/
def Slot.text : Slot → Text
  | .id => "id"
  | .key n => "k" ++ Text.ofNat n
  | .value n => "p" ++ Text.ofNat n
  | .default n => .concat ["p", Text.ofNat n, "_default"]

/-- A parameter of a statement. -/
structure Parameter where
  owner : Alias
  slot : Slot
deriving DecidableEq, Repr

/-- The name of a parameter. -/
def Parameter.text (p : Parameter) : Text := .concat [p.owner.name, "_", p.slot.text]

/-- A reference to a parameter. -/
def Parameter.reference (p : Parameter) : Text := "$" ++ p.text

/-! ## 2. Clauses -/

/-- A clause of a statement. Slots belong to the alias of the clause. -/
inductive Clause
  /-- Finds or makes a node with a label and properties. -/
  | mergeNode (owner : Alias) (label : Text) (keys : List (Text × Slot))
  /-- Finds or makes the relationship of a type between the two nodes. -/
  | mergeRelationship (type : Text)
  /-- Sets a property. -/
  | set (owner : Alias) (property : Text) (slot : Slot)
  /-- Updates a property, which has the default if it is not there. -/
  | update (owner : Alias) (property : Text) (operation : Arithmetic) (slot default : Slot)
  | returning (aliases : List Alias)
deriving DecidableEq

/-- A property with the slot of its value, in the braces of a node. -/
def Clause.keyText (owner : Alias) (key : Text × Slot) : Text :=
  .concat [quoteIdentifier key.1, ": ", Parameter.reference ⟨owner, key.2⟩]

/-- The braces of a node; none if there is nothing to put in. -/
def Clause.keysText (owner : Alias) : List (Text × Slot) → Text
  | [] => []
  | keys => .concat [" \x7b", Text.join ", " (keys.map (keyText owner)), "\x7d"]

/-- A property of an entity. -/
def Clause.target (owner : Alias) (property : Text) : Text :=
  .concat [owner.name, ".", quoteIdentifier property]

/-- The line of a clause. -/
def Clause.text : Clause → Text
  | .mergeNode owner label keys =>
    .concat ["MERGE (", owner.name, ":", quoteIdentifier label, keysText owner keys, ")"]
  | .mergeRelationship type =>
    .concat ["MERGE (", Alias.first.name, ")-[", Alias.relationship.name, ":",
      quoteIdentifier type, "]->(", Alias.second.name, ")"]
  | .set owner property slot =>
    .concat ["SET ", target owner property, " = ", Parameter.reference ⟨owner, slot⟩]
  | .update owner property operation slot default =>
    .concat ["SET ", target owner property, " = coalesce(", target owner property, ", ",
      Parameter.reference ⟨owner, default⟩, ") ", [operation.sign], " ",
      Parameter.reference ⟨owner, slot⟩]
  | .returning aliases => "RETURN " ++ Text.join ", " (aliases.map fun a => (a.name : Text))

end GraphFeed
