import GraphFeed.Log
import GraphFeed.Statement.Clause

/-!
# Statements

`Statement.ofInstruction` makes the statement of an instruction.

* A node with an id is merged on the property that holds it, and all assignments follow. A node
  without one is merged on the properties it sets; only its updates follow.
* A relationship is merged on its type alone; its id and its assignments follow.

An instruction one of whose nodes has a blank id is passed over, unless blank ids are to be kept.
-/

namespace GraphFeed

/-- A query and the values of its parameters. -/
structure Statement where
  query : Text
  parameters : Parameters

/-! ## 1. Drafts -/

/-- Clauses with the values of the parameters they refer to, in the order of the parameters. -/
structure Draft where
  clauses : List Clause
  values : List (Parameter × Value)

namespace Draft

instance : Append Draft := ⟨fun a b => ⟨a.clauses ++ b.clauses, a.values ++ b.values⟩⟩

/-- The draft of the assignments from number `n` on. -/
def assignments (owner : Alias) (n : Nat) : Properties → Draft
  | [] => ⟨[], []⟩
  | (name, .set value) :: rest =>
    ⟨[.set owner name (.value n)], [(⟨owner, .value n⟩, value)]⟩ ++ assignments owner (n + 1) rest
  | (name, .update operation value default) :: rest =>
    ⟨[.update owner name operation (.value n) (.default n)],
      [(⟨owner, .value n⟩, value), (⟨owner, .default n⟩, default)]⟩
      ++ assignments owner (n + 1) rest

/-- The properties that a node without id is merged on, with their slots. -/
def keys (properties : Properties) : List ((Text × Slot) × Value) :=
  (properties.filter fun p => !p.2.isArithmetic).zipIdx.map fun ((name, a), n) =>
    ((name, .key n), a.value)

/-- The draft of a node. -/
def node (owner : Alias) (e : Entity) : Draft :=
  match e.id? with
  | some id =>
    ⟨[.mergeNode owner e.name [(e.mergeOn, .id)]], [(⟨owner, .id⟩, .text id)]⟩
      ++ assignments owner 0 e.properties
  | none =>
    ⟨[.mergeNode owner e.name ((keys e.properties).map (·.1))],
      (keys e.properties).map fun key => (⟨owner, key.1.2⟩, key.2)⟩
      ++ assignments owner 0 (e.properties.filter fun p => p.2.isArithmetic)

/-- The draft of the relationship. -/
def relationship (e : Entity) : Draft :=
  let id : Draft := match e.id? with
    | some id =>
      ⟨[.set .relationship e.mergeOn .id], [(⟨.relationship, .id⟩, .text id)]⟩
    | none => ⟨[], []⟩
  ⟨[.mergeRelationship e.name], []⟩ ++ id ++ assignments .relationship 0 e.properties

/-- The draft of an instruction. -/
def ofInstruction : Instruction → Draft
  | .insert left => node .first left ++ ⟨[.returning [.first]], []⟩
  | .connect left between right =>
    node .first left ++ node .second right ++ relationship between
      ++ ⟨[.returning [.first, .second, .relationship]], []⟩

/-- The statement of a draft. -/
def statement (d : Draft) : Statement :=
  ⟨Text.join "\n" (d.clauses.map Clause.text), d.values.map fun (p, value) => (p.text, value)⟩

end Draft

/-! ## 2. Statements -/

/-- The instruction is passed over. -/
def Instruction.isSkipped (keepBlank : Bool) (i : Instruction) : Bool :=
  !keepBlank && i.nodes.any Entity.hasBlankId

/-- The log record on an instruction that is passed over. -/
def Instruction.skipNotice (i : Instruction) : LogRecord :=
  ⟨.warning, .statements, "Skipping expression with empty id: " ++ i.left.name⟩

/-- The statement of an instruction; none if it is passed over. -/
def Statement.ofInstruction (keepBlank : Bool) (i : Instruction) : Option Statement :=
  if i.isSkipped keepBlank then none else some (Draft.ofInstruction i).statement

end GraphFeed
