import GraphFeed.Instruction.Tree

/-!
# Reading instructions

`Instruction.read` makes an instruction of a text, by way of the tree that a parser finds. Blanks around
the text do not count. Quoted texts stand for what they are unquoted to. The operands of updates must be
numbers; the first that is none, in the order of writing and the operand before the default, is the
cause of failure. Of several assignments to one property the last one is in force, at the place of the
first.
-/

namespace GraphFeed

/-- The text that a token stands for. -/
def Token.value : Token → Text
  | .bare run => run
  | .quoted text => unquote text

/-- The number that an operand is written as. -/
def readOperand (operand : Text) : Except Text Value :=
  match Number.operand? operand with
  | some n => .ok (.ofNumber n)
  | none => .error operand

namespace ParseTree

/-- The name of a property and its assignment, or the operand that is no number. -/
def Property.build : Property → Except Text (Text × Assignment)
  | .set name value => .ok (name.value, .set value.value)
  | .arithmetic name operation operand =>
    (readOperand operand.value).map fun value =>
      (name.value, .update operation value Assignment.noDefault)
  | .defaulted name default operation operand =>
    match readOperand operand.value with
    | .error operand => .error operand
    | .ok value =>
      (readOperand default.value).map fun default => (name.value, .update operation value default)

/-- The assignments of properties, in their order. -/
def buildAll : List Property → Except Text (List (Text × Assignment))
  | [] => .ok []
  | p :: rest =>
    match p.build with
    | .error operand => .error operand
    | .ok a => (buildAll rest).map (a :: ·)

/-- The property that holds the id, and the id. -/
def Key.build : Key → Text × Text
  | .plain id => (GraphFeed.Entity.defaultMergeOn, id.value)
  | .named holder id => (holder.value, id.value)

/-- The entity, or the first operand that is no number. -/
def Entity.build (e : Entity) : Except Text GraphFeed.Entity :=
  (buildAll e.properties).map fun assignments =>
    let key := e.key.map Key.build
    { name := e.name.value
      mergeOn := (key.map (·.1)).getD GraphFeed.Entity.defaultMergeOn
      id := key.map (·.2)
      properties := .ofList assignments }

/-- The instruction, or the first operand that is no number. -/
def build : ParseTree → Except Text Instruction
  | .insert left => left.build.map .insert
  | .connect left relationship right =>
    match left.build with
    | .error operand => .error operand
    | .ok left =>
      match relationship.build with
      | .error operand => .error operand
      | .ok relationship => right.build.map (.connect left relationship ·)

end ParseTree

/-- The instruction that a text says. -/
def Instruction.read (parser : Parser) (t : Text) : Except Error Instruction :=
  if t.strip.isEmpty then .error (.emptyInstruction t)
  else
    match parser t.strip with
    | none => .error (.noReading t)
    | some tree => tree.build.mapError fun operand => .badOperand operand t

end GraphFeed
