import GraphFeed.Text.Printable

/-!
# Quoted texts in messages

Messages show a text between quotes so that its ends and its unprintable code points can be seen.
The quote is a single one, unless the text holds a single quote and no double quote. The
backslash, the quote itself and the unprintable code points are written with a backslash: `\n`,
`\r` and `\t` by their letter, others by `\x`, `\u` or `\U` and two, four or eight hexadecimal
digits.
-/

namespace GraphFeed

/-- One code point as it is written between quotes `quote`. -/
def CodePoint.quotedBy (quote : CodePoint) (c : CodePoint) : Text :=
  if c = quote ∨ c = '\\' then ['\\', c]
  else if c = '\n' then "\\n"
  else if c = '\r' then "\\r"
  else if c = '\t' then "\\t"
  else if c.isPrintable then [c]
  else if c.val < 0x100 then "\\x" ++ Text.hex 2 c.val
  else if c.val < 0x10000 then "\\u" ++ Text.hex 4 c.val
  else "\\U" ++ Text.hex 8 c.val

/-- The quote a message puts around the text. -/
def Text.quoteMark (t : Text) : CodePoint :=
  if ('\'' : CodePoint) ∈ t ∧ ('"' : CodePoint) ∉ t then '"' else '\''

/-- The text between quotes. -/
def Text.quoted (t : Text) : Text :=
  t.quoteMark :: t.flatMap (CodePoint.quotedBy t.quoteMark) ++ [t.quoteMark]

end GraphFeed
