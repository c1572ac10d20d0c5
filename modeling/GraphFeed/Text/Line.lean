import GraphFeed.Text.Basic

/-!
# Lines

`Text.unifyNewlines` makes one line feed of each line end (`\r\n`, `\r` or `\n`); `Text.lines` cuts
a text after its line feeds; `Text.stripLineEnd` removes the line end of one line.
-/

namespace GraphFeed.Text

/-- Every line end becomes a line feed; `afterReturn` tells that a carriage return came before, the
    line feed of which has already been written. -/
def unifyNewlinesAfter (afterReturn : Bool) : Text → Text
  | [] => []
  | c :: t =>
    if c = '\r' then ('\n' : CodePoint) :: unifyNewlinesAfter true t
    else if c = '\n' ∧ afterReturn = true then unifyNewlinesAfter false t
    else c :: unifyNewlinesAfter false t

/-- Every line end becomes a line feed. -/
def unifyNewlines (t : Text) : Text := unifyNewlinesAfter false t

/-- The lines of a text, each with its line feed; the last one may have none. -/
def lines : Text → List Text
  | [] => []
  | c :: t =>
    if c = '\n' then [c] :: lines t
    else
      match lines t with
      | [] => [[c]]
      | line :: rest => (c :: line) :: rest

/-- A line without the line feeds and carriage returns at its end. -/
def stripLineEnd (t : Text) : Text :=
  (t.reverse.dropWhile fun c => c = ('\n' : CodePoint) ∨ c = ('\r' : CodePoint)).reverse

/-- The part of a text before its first line feed. -/
def firstLine (t : Text) : Text := t.takeWhile fun c => c ≠ ('\n' : CodePoint)

end GraphFeed.Text
