import GraphFeed.Template.Buffer

/-!
# Live braces

An opening brace is live if it is not the last code point and no backslash escapes it; a backslash
that came from data escapes nothing. The code point behind a live brace tells the two kinds of
placeholders apart: an exclamation mark makes it a command, anything else a field reference.

`Phase.find` looks for the next live brace of one kind in a text, with or without marks.
-/

namespace GraphFeed

/-- The two phases of an expansion, and with them the two kinds of placeholders. -/
inductive Phase
  | fields
  | commands
deriving DecidableEq, Repr

namespace Phase

/-- A live brace with `next` behind it opens a placeholder of this kind. -/
def opens (phase : Phase) (next : CodePoint) : Bool :=
  match phase with
  | .fields => next ≠ '!'
  | .commands => next = '!'

/-- Whether a live brace stands at a position of a text. Positions may be negative; without marks
    every backslash escapes. -/
def unescapedBraceAt (t : Text) (marks : Option (List Mark)) (index : Int) : Except Error Bool :=
  match Span.item? t index with
  | none => .error .textIndex
  | some c =>
    if c ≠ ('{' : CodePoint) then .ok false
    else if index = 0 then .ok true
    else
      match Span.item? t (index - 1) with
      | none => .error .textIndex
      | some before =>
        if before ≠ ('\\' : CodePoint) then .ok true
        else
          match marks with
          | none => .ok false
          | some marks =>
            match Span.item? marks (index - 1) with
            | none => .error .listIndex
            | some m => .ok (m = .resolved)

/-- The first of `count` positions from `index` on at which a placeholder of this kind opens. -/
def findFrom (phase : Phase) (t : Text) (marks : Option (List Mark)) :
    Nat → Int → Except Error (Option Int)
  | 0, _ => .ok none
  | count + 1, index =>
    match unescapedBraceAt t marks index with
    | .error e => .error e
    | .ok false => findFrom phase t marks count (index + 1)
    | .ok true =>
      match Span.item? t (index + 1) with
      | none => .error .textIndex
      | some next =>
        if phase.opens next then .ok (some index) else findFrom phase t marks count (index + 1)

/-- The first position from `start` on at which a placeholder of this kind opens. -/
def find (phase : Phase) (t : Text) (start : Int) (marks : Option (List Mark)) :
    Except Error (Option Int) :=
  phase.findFrom t marks ((t.length : Int) - 1 - start).toNat start

end Phase

end GraphFeed
