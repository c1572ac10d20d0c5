import GraphFeed.Text.Basic

/-!
# Patterns

In a pattern `*` stands for any text, `?` for any character and `[…]` for one of several characters;
a backslash takes the meaning of the character after it away.

Part of the shell that the program is run with (`Shell.Runner`).
-/

namespace GraphFeed.Shell.Pattern

/-! ## 1. Sets of characters -/

/-- The members of a set up to its closing bracket, as ranges, and what follows it. A bracket that
    comes first is a member. -/
def readSet (isFirst : Bool) : Text → Option (List (CodePoint × CodePoint) × Text)
  | [] => none
  | c :: t =>
    if c = (']' : CodePoint) ∧ isFirst = false then some ([], t)
    else
      match t with
      | d :: e :: u =>
        if d = ('-' : CodePoint) ∧ e ≠ (']' : CodePoint) then
          (readSet false u).map fun (ranges, rest) => ((c, e) :: ranges, rest)
        else (readSet false (d :: e :: u)).map fun (ranges, rest) => ((c, c) :: ranges, rest)
      | t => (readSet false t).map fun (ranges, rest) => ((c, c) :: ranges, rest)

/-- The set after an opening bracket, `!` or `^` making it the set of all other characters. -/
def set? (t : Text) : Option ((CodePoint → Bool) × Text) :=
  match t with
  | [] => none
  | c :: u =>
    let isNegated := c = ('!' : CodePoint) || c = ('^' : CodePoint)
    (readSet true (if isNegated then u else c :: u)).map fun (ranges, rest) =>
      (fun d => (ranges.any fun (low, high) => decide (low.val ≤ d.val ∧ d.val ≤ high.val))
        != isNegated, rest)

/-! ## 2. Matching -/

/-- The whole text matches the pattern. -/
def isMatch (fuel : Nat) (pattern t : Text) : Bool :=
  match fuel with
  | 0 => false
  | fuel + 1 =>
    match pattern with
    | [] => t.isEmpty
    | p :: rest =>
      if p = ('*' : CodePoint) then
        isMatch fuel rest t ||
          match t with
          | [] => false
          | _ :: u => isMatch fuel pattern u
      else
        match t with
        | [] => false
        | c :: u =>
          if p = ('?' : CodePoint) then isMatch fuel rest u
          else if p = ('\\' : CodePoint) then
            match rest with
            | q :: rest => c = q && isMatch fuel rest u
            | [] => c = p && u.isEmpty
          else if p = ('[' : CodePoint) then
            match set? rest with
            | some (holds, rest) => holds c && isMatch fuel rest u
            | none => c = p && isMatch fuel rest u
          else c = p && isMatch fuel rest u

/-- The whole text matches the pattern. -/
def holds (pattern t : Text) : Bool := isMatch (pattern.length + t.length + 1) pattern t

/-- The text without the shortest or the longest part at one end that matches the pattern. -/
def trim (pattern t : Text) (atEnd longest : Bool) : Text :=
  let lengths := List.range (t.length + 1)
  let lengths := if longest then lengths.reverse else lengths
  let cut? := lengths.find? fun n =>
    holds pattern (if atEnd then t.drop (t.length - n) else t.take n)
  match cut? with
  | none => t
  | some n => if atEnd then t.take (t.length - n) else t.drop n

end GraphFeed.Shell.Pattern
