import GraphFeed.Error

/-!
# Instructions

An instruction inserts one entity or connects two entities by a third, their relationship. An
entity has a name, may have an id together with the property that holds it, and assigns values to
properties. An assignment either sets a property or updates it by an arithmetic operation; an
update carries a default, which counts as the value of a property that is not there yet.
-/

namespace GraphFeed

/-! ## 1. Operators -/

/-- The operations of an update. -/
inductive Arithmetic
  | add
  | subtract
  | multiply
  | divide
deriving DecidableEq, Repr

/-- The sign of an operation. -/
def Arithmetic.sign : Arithmetic → CodePoint
  | .add => '+'
  | .subtract => '-'
  | .multiply => '*'
  | .divide => '/'

/-- All operations. -/
def Arithmetic.all : List Arithmetic := [.add, .subtract, .multiply, .divide]

/-- The operation with the given sign. -/
def Arithmetic.ofSign? (c : CodePoint) : Option Arithmetic := all.find? fun a => a.sign = c

@[simp] theorem Arithmetic.ofSign?_sign (a : Arithmetic) : ofSign? a.sign = some a := by
  cases a <;> decide

/-- What stands between the name of a property and its value. -/
inductive Operator
  | set
  | update (operation : Arithmetic)
deriving DecidableEq, Repr

namespace Operator

/-- The operator as it is written. -/
def symbol : Operator → Text
  | .set => ":"
  | .update a => [a.sign, '=']

/-- All operators. -/
def all : List Operator := .set :: Arithmetic.all.map .update

/-- The operator written as `t`. -/
def ofSymbol (t : Text) : Except Error Operator :=
  match all.find? fun o => o.symbol = t with
  | some o => .ok o
  | none => .error (.unknownOperator t)

@[simp] theorem ofSymbol_symbol (o : Operator) : ofSymbol o.symbol = .ok o := by
  rcases o with _ | a
  · rfl
  · cases a <;> rfl

/-- The operator is an update. -/
def isArithmetic : Operator → Bool
  | .set => false
  | .update _ => true

/-- The sign of the operation of an update; setting has none. -/
def sign : Operator → Except Error CodePoint
  | .set => .error .noSymbol
  | .update a => .ok a.sign

end Operator

/-! ## 2. Assignments -/

/-- What is done to a property. -/
inductive Assignment
  | set (value : Value)
  | update (operation : Arithmetic) (value default : Value)

namespace Assignment

/-- The operator of an assignment. -/
def operator : Assignment → Operator
  | .set _ => .set
  | .update a _ _ => .update a

/-- The value of an assignment. -/
def value : Assignment → Value
  | .set v => v
  | .update _ v _ => v

/-- The default of an update. -/
def default? : Assignment → Option Value
  | .set _ => none
  | .update _ _ d => some d

/-- The assignment is an update. -/
def isArithmetic (a : Assignment) : Bool := a.operator.isArithmetic

/-- The update with the given operator, which must be arithmetic. -/
def arithmetic (operator : Operator) (value default : Value) : Except Error Assignment :=
  match operator with
  | .set => .error .notArithmetic
  | .update a => .ok (.update a value default)

/-- The default of an update that states none. -/
def noDefault : Value := .int 0

end Assignment

/-! ## 3. Entities -/

/-- The assignments of an entity by the names of their properties, in order. -/
abbrev Properties := List (Text × Assignment)

/-- Assigns to a property: a new name comes last, a name already there keeps its place. -/
def Properties.assign (name : Text) (a : Assignment) : Properties → Properties
  | [] => [(name, a)]
  | (n, b) :: rest => if n = name then (n, a) :: rest else (n, b) :: assign name a rest

/-- The properties after all the assignments, the last one to a name being in force. -/
def Properties.ofList (assignments : List (Text × Assignment)) : Properties :=
  assignments.foldl (fun ps (name, a) => ps.assign name a) []

/-- An entity: a node of the graph, or a relationship. -/
structure Entity where
  /-- The label of a node or the type of a relationship. -/
  name : Text
  /-- The property that holds the id. -/
  mergeOn : Text
  id : Option Text
  properties : Properties

namespace Entity

/-- The property that holds the id where none is stated. -/
def defaultMergeOn : Text := "id"

/-- The id, if it is given and not empty. -/
def id? (e : Entity) : Option Text := e.id.filter fun t => !t.isEmpty

/-- The entity has an id that is not empty. -/
def hasId (e : Entity) : Bool := e.id?.isSome

/-- The entity has an id, and it is empty. -/
def hasBlankId (e : Entity) : Bool := e.id = some []

end Entity

/-! ## 4. Instructions -/

/-- What one line asks of the graph. -/
inductive Instruction
  | insert (left : Entity)
  | connect (left relationship right : Entity)

namespace Instruction

/-- The entity that is inserted, or the one at which the relationship begins. -/
def left : Instruction → Entity
  | .insert left => left
  | .connect left _ _ => left

/-- The entities of an instruction in the order in which they are written. -/
def entities : Instruction → List Entity
  | .insert left => [left]
  | .connect left relationship right => [left, relationship, right]

/-- The entities that are nodes. -/
def nodes : Instruction → List Entity
  | .insert left => [left]
  | .connect left _ right => [left, right]

/-- The instruction connects two entities. -/
def isConnect : Instruction → Bool
  | .insert _ => false
  | .connect .. => true

end Instruction

end GraphFeed
