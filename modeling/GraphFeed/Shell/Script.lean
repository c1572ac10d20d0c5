import GraphFeed.Text.Basic

/-!
# Scripts

A script is what a shell is asked to do. Its words are made of pieces: text as it stands, and values
that are only known when the word is used. A command is a simple command, that is words with
assignments before them and redirections among them, or is made of other commands.

A shell works on bytes. A byte is written as the code point of the same number, so that all
operations on texts serve for bytes too.

The shell stands in for that of a machine when the program is run (`Shell.Runner`), and for no more.
-/

namespace GraphFeed.Shell

/-! ## 1. Words -/

/-- What `${name…word}` does with its word. -/
inductive Change
  /-- The word stands in for a missing value. -/
  | replacement
  /-- The word stands in for a missing value and becomes the value. -/
  | assignment
  /-- The word is the reason to give up where there is no value. -/
  | refusal
  /-- The word stands in for a value that is there. -/
  | alternative
  /-- The word is a pattern that is cut off at the start or the end of the value. -/
  | trimming (atEnd longest : Bool)
deriving DecidableEq

/-- A piece of a word. Values in quotes are not cut into fields. -/
inductive Piece
  | literal (text : Text)
  | quoted (text : Text)
  | parameter (name : Text) (isQuoted : Bool)
  /-- The length of a value. -/
  | size (name : Text)
  /-- A value that a word may take the place of. For `emptyToo` an empty value is missing. -/
  | changed (name : Text) (change : Change) (emptyToo : Bool) (word : List Piece) (isQuoted : Bool)
  /-- The output of a script. -/
  | output (script : Text) (isQuoted : Bool)
  /-- The value of an arithmetic expression. -/
  | arithmetic (expression : List Piece)

/-- A word of a command. -/
abbrev Word := List Piece

/-! ## 2. Commands -/

/-- What a redirection does with a descriptor. -/
inductive Direction
  | read
  | overwrite
  | append
  /-- The descriptor becomes another name of the one that the word tells. -/
  | duplicate
deriving DecidableEq

/-- A redirection of a descriptor. -/
structure Redirection where
  descriptor : Nat
  direction : Direction
  word : Word

/-- A value that is assigned to a variable. -/
structure Assignment where
  name : Text
  value : Word

/-- The parts of a simple command, and the line it stands in. -/
structure SimpleCommand where
  line : Nat
  assignments : List Assignment
  words : List Word
  redirections : List Redirection

/-- A command. -/
inductive Command
  | simple (parts : SimpleCommand)
  /-- Each command reads what the one before it writes. -/
  | pipeline (stages : List Command)
  | both (first second : Command)
  | either (first second : Command)
  | negated (command : Command)
  | sequence (commands : List Command)
  /-- Runs apart from the shell. -/
  | background (command : Command)
  /-- Runs in a copy of the shell. -/
  | subshell (body : Command)
  | redirected (body : Command) (redirections : List Redirection)
  | conditional (condition body otherwise : Command)
  /-- Repeats the body as long as the condition holds, or fails if `untilHolds`. -/
  | loop (untilHolds : Bool) (condition body : Command)
  | each (name : Text) (words : List Word) (body : Command)
  | choice (subject : Word) (cases : List (List Word × Command))
  | define (name : Text) (body : Command)

/-- The command that does nothing. -/
def Command.nothing : Command := .sequence []

end GraphFeed.Shell
