import GraphFeed.Text.Basic

/-!
# Files

The files that a program finds are a list of paths with their contents. Paths are relative to the
directory of the program, and are compared step by step, so that `./a//b` and `a/b` are one path.
-/

namespace GraphFeed

/-- The files of a directory and of those in it, by path. -/
abbrev FileTree := List (Text × Text)

namespace FileTree

/-- What stands at a path. -/
inductive Entry
  | file (content : Text)
  | directory
  | missing

/-- The steps of a path, steps on the spot and steps back carried out. -/
def steps (path : Text) : List Text :=
  ((Text.splitOn path '/').foldl (fun done step =>
    if step = [] ∨ step = Text.ofString "." then done
    else if step = Text.ofString ".." then done.drop 1
    else step :: done) []).reverse

/-- What stands at a path. -/
def entry (tree : FileTree) (path : Text) : Entry :=
  match tree.find? fun f => steps f.1 = steps path with
  | some (_, content) => .file content
  | none =>
    if (steps path).isEmpty || tree.any fun f => (steps path).isPrefixOf (steps f.1) then .directory
    else .missing

/-- The tree with a file of the given content at a path. -/
def write (tree : FileTree) (path content : Text) : FileTree :=
  (path, content) :: tree.filter fun f => steps f.1 ≠ steps path

end FileTree

end GraphFeed
