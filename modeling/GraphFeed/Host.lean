import GraphFeed.Text.Basic

/-!
# The machine

What is asked of the machine that a run takes place on: the number of its processors, which it may be
unable to tell, and the variables of the environment.
-/

namespace GraphFeed

/-- A machine, as far as it is asked. -/
structure Host where
  /-- The number of processors, if the machine can tell it. -/
  processors : Option Nat
  /-- The variables of the environment. -/
  lookup : Text → Option Text

/-- As many workers as there are processors, and one where their number cannot be told. -/
def workersFor (processors : Option Nat) : Nat :=
  match processors with
  | some (n + 1) => n + 1
  | _ => 1

theorem workersFor_pos (processors : Option Nat) : 0 < workersFor processors := by
  unfold workersFor
  split
  · exact Nat.succ_pos _
  · exact Nat.one_pos

end GraphFeed
