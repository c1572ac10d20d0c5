import GraphFeed.Batch
import GraphFeed.Graph.Connection
import GraphFeed.Record
import GraphFeed.Settings.Basic

/-!
# Plans of runs

`Plan.ofSettings` makes of the settings what a run needs to know. Settings that were not checked may
make no plan; the cause is then that of the first setting that is in the way. Some settings go into
the plan as they are, because a run finds out later whether it can use them: the size of batches
(`Plan.lineLimit`), how much is logged (`Plan.checkVerbosity`), the query at the end, and marks of the
record format that are no texts (`OddMark`).
-/

namespace GraphFeed

/-! ## 1. Plans -/

/-- What a run needs to know. -/
structure Plan where
  output : OutputMode
  /-- All statements go into one transaction. -/
  transactional : Bool
  /-- Nothing is sent to the database. -/
  simulated : Bool
  keepBlank : Bool
  /-- What splits lines, or the first of its marks that is no text. -/
  splitter : Except OddMark Splitter
  batches : Batch.Plan
  verbosity : Value
  /-- A query that is run after all lines. -/
  endQuery : Option Value
  showResults : Bool
  address : Graph.Address

namespace Plan

/-- A setting that has to be a single code point. A list or a mapping of one item is taken for one. -/
def readMark (which : RecordMark) (v : Value) : Except Error (Except OddMark CodePoint) :=
  match v with
  | .text t => (Splitter.mark which t).map .ok
  | .list [_] | .mapping [_] => .ok (.error ⟨which, v.kind⟩)
  | .list _ | .mapping _ => .error (.recordMark which v)
  | v => .error (.noLength v.kind)

/-- What splits lines at marks. -/
def splitterOf (delimiter quote : Except OddMark CodePoint) : Except OddMark Splitter :=
  delimiter.bind fun delimiter => quote.map fun quote => ⟨delimiter, quote⟩

/-- The strategy for a number of jobs. -/
def readStrategy (jobs : Value) : Except Error Batch.Strategy :=
  match jobs.compareInt 1 with
  | .ok (some .gt) => .ok .parallel
  | .ok _ => .ok .sequential
  | .error kind => .error (.incomparable .greater kind)

/-- The output mode that a setting names. -/
def readOutput (v : Value) : Except Error OutputMode :=
  match OutputMode.ofValue? v with
  | some mode => .ok mode
  | none => .error (.invalidOutput v)

/-- The plan of a run with the given settings. Parts of the address that the settings leave out are
    looked up in the environment. -/
def ofSettings (s : Settings) (host : Host) : Except Error Plan := do
  let output ← readOutput (s .output)
  let delimiter ← readMark .delimiter (s .separator)
  let quote ← readMark .quote (s .quote)
  let strategy ← readStrategy (s .jobs)
  return {
    output
    transactional := !(s .stream).isTrue
    simulated := (s .testOnly).isTrue
    keepBlank := (s .keepBlank).isTrue
    splitter := splitterOf delimiter quote
    batches := .of host.processors strategy (s .batchSize) (s .jobs)
    verbosity := s .verbosity
    endQuery := if (s .endQuery).isTrue then some (s .endQuery) else none
    showResults := (s .showResults).isTrue
    address := .of (s .uri) (s .user) (s .password) (s .database) host.lookup }

/-! ## 2. Settings that are used later -/

/-- The greatest number of lines that a batch can ask for. -/
def maxLines : Int := Int64.maxValue.toInt

/-- How many lines a batch takes, null being all of them. -/
def lineLimit (p : Plan) : Except Error (Option Nat) :=
  match p.batches.size with
  | .null => .ok none
  | size =>
    match size.index with
    | .ok n => if 0 ≤ n ∧ n ≤ maxLines then .ok (some n.toNat) else .error .batchLimit
    | .error _ => .error .batchLimit

/-- Refuses a verbosity that is no number. -/
def checkVerbosity (p : Plan) : Except Error Unit :=
  match p.verbosity.compareInt 0 with
  | .ok _ => .ok ()
  | .error kind => .error (.incomparable .greater kind)

/-- The verbosity is above a level. -/
def isAbove (p : Plan) (level : Int) : Bool :=
  match p.verbosity.compareInt level with
  | .ok (some .gt) => true
  | _ => false

end Plan

end GraphFeed
