import GraphFeed.Instruction.Basic
import GraphFeed.Instruction.Quotation

/-!
# Parse trees of instructions

The grammar, of which `_` is an optional run of blanks:

```text
instruction := entity | entity blank entity blank entity
entity      := text (_ ':' _ key)? (_ properties)?
key         := text ('=' text)?
properties  := '(' _ property (_ ',' _ property)* _ ')'
property    := text _ ':' _ text
             | text _ operator _ text
             | text _ '(' _ text _ ')' _ operator _ text
operator    := '+=' | '-=' | '*=' | '/='
text        := bare run | quoted text
```

A bare run may hold commas and hyphens, so that a text may have several derivations. A `ParseTree`
holds what is left of a derivation without its blanks and signs. Its texts are tokens as they stand,
quote marks and escapes included. Which tree a text has is for a `Parser` to say.
-/

namespace GraphFeed

/-- A text as it stands in an instruction: bare, or quoted, and then with its marks. -/
inductive Token
  | bare (run : Text)
  | quoted (text : Text)
deriving DecidableEq

namespace ParseTree

/-- A property: a value that is set, an update, or an update with a default. -/
inductive Property
  | set (name value : Token)
  | arithmetic (name : Token) (operation : Arithmetic) (operand : Token)
  | defaulted (name default : Token) (operation : Arithmetic) (operand : Token)
deriving DecidableEq

/-- An id, with the name of the property that holds it or without. -/
inductive Key
  | plain (id : Token)
  | named (holder id : Token)
deriving DecidableEq

/-- An entity. Where no properties are stated there are none. -/
structure Entity where
  name : Token
  key : Option Key
  properties : List Property
deriving DecidableEq

end ParseTree

/-- An instruction. -/
inductive ParseTree
  | insert (left : ParseTree.Entity)
  | connect (left relationship right : ParseTree.Entity)
deriving DecidableEq

/-- What finds a tree of a text, if the text has one. -/
abbrev Parser := Text → Option ParseTree

end GraphFeed
