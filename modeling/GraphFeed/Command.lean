import GraphFeed.Error

/-!
# Commands

A template may ask for the output of a command. What runs commands is not part of the expansion:
it is handed in as a `Runner`, which answers the n-th command of an expansion with its output or a
failure. A runner may answer one command differently at different times, because it is told how
many commands came before.
-/

namespace GraphFeed

/-- What a command that succeeded has written. -/
structure Output where
  standard : Text
  errors : Text
deriving DecidableEq

/-- Answers a command, given how many commands came before it. -/
abbrev Runner := Nat → Text → Except Error Output

/-- A runner whose answers depend on the command alone. -/
def Runner.ofFunction (f : Text → Except Error Output) : Runner := fun _ => f

/-- Removes the backslash of each pair of a backslash and another code point; a backslash at the
    end of a line stays. -/
def unescapeCommand : Text → Text
  | [] => []
  | [c] => [c]
  | c :: d :: t =>
    if c = '\\' ∧ d ≠ '\n' then d :: unescapeCommand t else c :: unescapeCommand (d :: t)

/-- What is no backslash stays. -/
theorem unescapeCommand_cons {c : CodePoint} (h : c ≠ ('\\' : CodePoint)) (t : Text) :
    unescapeCommand (c :: t) = c :: unescapeCommand t := by
  cases t with
  | nil => rfl
  | cons d t => rw [unescapeCommand, if_neg fun hc => h hc.1]

/-- A backslash goes, and what is behind it stays. -/
theorem unescapeCommand_backslash {d : CodePoint} (h : d ≠ ('\n' : CodePoint)) (t : Text) :
    unescapeCommand ('\\' :: d :: t) = d :: unescapeCommand t := by
  rw [unescapeCommand, if_pos ⟨rfl, h⟩]

end GraphFeed
