import GraphFeed.Value.Basic
import GraphFeed.Text.Quoted

/-!
# Values as messages and log lines show them

`Value.literal` writes a value on one line: texts between quotes, lists in brackets, mappings in
braces, the truth values and `null` as words.
-/

namespace GraphFeed.Value

mutual

/-- A value on one line. -/
def literal : Value → Text
  | .null => "None"
  | .bool b => if b then "True" else "False"
  | .int n => Text.ofInt n
  | .float x => x.text
  | .text t => t.quoted
  | .list items => "[" ++ literalItems items ++ "]"
  | .mapping entries => "\x7b" ++ literalEntries entries ++ "\x7d"

/-- The items of a list, with commas between them. -/
def literalItems : List Value → Text
  | [] => []
  | [v] => literal v
  | v :: rest => literal v ++ ", " ++ literalItems rest

/-- The entries of a mapping, with commas between them. -/
def literalEntries : List (Value × Value) → Text
  | [] => []
  | [(k, v)] => literal k ++ ": " ++ literal v
  | (k, v) :: rest => literal k ++ ": " ++ literal v ++ ", " ++ literalEntries rest

end

/-- A value as part of a sentence: a text as it is, every other value as its literal. -/
def shown : Value → Text
  | .text t => t
  | v => v.literal

end GraphFeed.Value
