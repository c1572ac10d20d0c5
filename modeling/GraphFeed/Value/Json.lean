import GraphFeed.Value.Basic

/-!
# Values as JSON text

`Value.json` writes a value as JSON on one line, with a blank after each comma and colon. Only
ASCII is written: every other code point becomes `\u` and four hexadecimal digits, one beyond
U+FFFF a surrogate pair. Numbers that JSON does not know are written `NaN` and `Infinity`.
-/

namespace GraphFeed.Value

/-- One code point inside a JSON text. -/
def jsonCodePoint (c : CodePoint) : Text :=
  if c = '"' then "\\\""
  else if c = '\\' then "\\\\"
  else if c = '\n' then "\\n"
  else if c = '\r' then "\\r"
  else if c = '\t' then "\\t"
  else if c.val = 8 then "\\b"
  else if c.val = 12 then "\\f"
  else if 0x20 ≤ c.val ∧ c.val < 0x7F then [c]
  else if c.val < 0x10000 then "\\u" ++ Text.hex 4 c.val
  else
    let n := c.val - 0x10000
    "\\u" ++ Text.hex 4 (0xD800 + n / 0x400) ++ "\\u" ++ Text.hex 4 (0xDC00 + n % 0x400)

/-- A text as JSON. -/
def jsonText (t : Text) : Text := "\"" ++ t.flatMap jsonCodePoint ++ "\""

/-- A floating point number as JSON. -/
def jsonFloat : Binary64 → Text
  | .nan => "NaN"
  | .infinite negative => if negative then "-Infinity" else "Infinity"
  | x => x.text

/-- The text of a key: words and numbers become texts, too. -/
def jsonKey : Value → Text
  | .null => "null"
  | .bool b => if b then "true" else "false"
  | .int n => Text.ofInt n
  | .float x => jsonFloat x
  | .text t => t
  | _ => []

mutual

/-- A value as JSON. -/
def json : Value → Text
  | .null => "null"
  | .bool b => if b then "true" else "false"
  | .int n => Text.ofInt n
  | .float x => jsonFloat x
  | .text t => jsonText t
  | .list items => "[" ++ jsonItems items ++ "]"
  | .mapping entries => "\x7b" ++ jsonEntries entries ++ "\x7d"

/-- The items of a list as JSON. -/
def jsonItems : List Value → Text
  | [] => []
  | [v] => json v
  | v :: rest => json v ++ ", " ++ jsonItems rest

/-- The entries of a mapping as JSON. -/
def jsonEntries : List (Value × Value) → Text
  | [] => []
  | [(k, v)] => jsonText (jsonKey k) ++ ": " ++ json v
  | (k, v) :: rest => jsonText (jsonKey k) ++ ": " ++ json v ++ ", " ++ jsonEntries rest

end

end GraphFeed.Value
