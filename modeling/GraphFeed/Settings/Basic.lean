import GraphFeed.Error
import GraphFeed.Host

/-!
# Settings

A run has seventeen settings. Each has a value, which is any `Value` at all until the settings are
checked, because a settings file may put any value in any place.

Settings come in layers. `Settings.overlaid` puts one layer over those below it: a setting has the value
that the highest layer gives it, where null counts as not given. Entries of a layer that name no setting
are of no effect.

`Settings.validate` refuses settings that are out of range.
-/

namespace GraphFeed

/-! ## 1. Names -/

/-- The settings of a run. -/
inductive Setting
  | separator
  | quote
  | shell
  | execTimeout
  | keepBlank
  | jobs
  | batchSize
  | output
  | testOnly
  | stream
  | endQuery
  | showResults
  | verbosity
  | uri
  | user
  | password
  | database
deriving DecidableEq, Repr

namespace Setting

/-- The name of a setting in a layer. -/
def name : Setting → Text
  | .separator => "separator"
  | .quote => "quote"
  | .shell => "shell"
  | .execTimeout => "exec_timeout"
  | .keepBlank => "keep_blank"
  | .jobs => "jobs"
  | .batchSize => "batch_size"
  | .output => "output"
  | .testOnly => "test_only"
  | .stream => "stream"
  | .endQuery => "end_query"
  | .showResults => "show_results"
  | .verbosity => "verbosity"
  | .uri => "neo4j_uri"
  | .user => "neo4j_user"
  | .password => "neo4j_password"
  | .database => "neo4j_database"

/-- All settings. -/
def all : List Setting :=
  [.separator, .quote, .shell, .execTimeout, .keepBlank, .jobs, .batchSize, .output, .testOnly,
    .stream, .endQuery, .showResults, .verbosity, .uri, .user, .password, .database]

theorem mem_all (s : Setting) : s ∈ all := by cases s <;> decide

/-- The value of a setting that nothing else gives a value. There are as many jobs as processors. -/
def default (processors : Option Nat) : Setting → Value
  | .separator => .text " "
  | .quote => .text "\""
  | .shell => .text "/bin/sh"
  | .execTimeout => .null
  | .keepBlank => .bool false
  | .jobs => .int (workersFor processors)
  | .batchSize => .int 500
  | .output => .text "none"
  | .testOnly => .bool false
  | .stream => .bool false
  | .endQuery => .null
  | .showResults => .bool false
  | .verbosity => .int 0
  | .uri => .text "bolt://localhost:7687"
  | .user => .text "neo4j"
  | .password => .text "password"
  | .database => .text "neo4j"

end Setting

/-- A value for each setting. -/
abbrev Settings := Setting → Value

/-- Values by name, some of them of settings. -/
abbrev Layer := List (Value × Value)

/-! ## 2. Layers -/

namespace Layer

/-- The value a layer has for a setting; it may be null. -/
def get? (layer : Layer) (s : Setting) : Option Value := Value.entry? s.name layer

/-- The value a layer gives to a setting. Null gives nothing. -/
def given? (layer : Layer) (s : Setting) : Option Value := (layer.get? s).filter Value.isGiven

/-- The layer that gives one setting a value. -/
def single (s : Setting) (value : Value) : Layer := [(.text s.name, value)]

end Layer

namespace Settings

/-- The settings that nothing gives a value. -/
def standard (processors : Option Nat) : Settings := Setting.default processors

/-- The settings with a layer over them. -/
def overlaid (below : Settings) (layer : Layer) : Settings :=
  fun s => (layer.given? s).getD (below s)

/-- The settings with the values of a layer, null among them. -/
def ofLayer (processors : Option Nat) (layer : Layer) : Settings :=
  fun s => (layer.get? s).getD (s.default processors)

end Settings

/-! ## 3. Output -/

/-- What a run prints. -/
inductive OutputMode
  | none
  /-- Every line of input. -/
  | pipe
  /-- Every instruction. -/
  | interpolated
  /-- The records that the database answers. -/
  | json
deriving DecidableEq, Repr

namespace OutputMode

/-- The name of an output mode. -/
def name : OutputMode → String
  | .none => "none"
  | .pipe => "pipe"
  | .interpolated => "interpolated"
  | .json => "json"

/-- All output modes. -/
def all : List OutputMode := [.none, .pipe, .interpolated, .json]

/-- The output mode that a value names. -/
def ofValue? (v : Value) : Option OutputMode :=
  match v with
  | .text t => all.find? fun m => Text.ofString m.name = t
  | _ => Option.none

end OutputMode

/-! ## 4. Checks -/

namespace Settings

/-- Refuses a value that is no single code point. -/
def checkSingle (mark : RecordMark) (v : Value) : Except Error Unit :=
  match v with
  | .text [_] => .ok ()
  | v => .error (.notSingle mark v)

/-- Refuses a number below 1. -/
def checkCount (setting : PositiveSetting) (v : Value) : Except Error Unit :=
  match v.compareInt 1 with
  | .ok (some .lt) => .error (.notPositive setting v)
  | .ok _ => .ok ()
  | .error kind => .error (.incomparable .less kind)

/-- Refuses a time that is zero or less. No time at all is no limit. -/
def checkTimeout (v : Value) : Except Error Unit :=
  if v.isGiven then
    match v.compareInt 0 with
    | .ok (some .lt) | .ok (some .eq) => .error (.notPositive .timeout v)
    | .ok _ => .ok ()
    | .error kind => .error (.incomparable .lessOrEqual kind)
  else .ok ()

/-- Refuses settings that are out of range, by the first one that is. -/
def validate (s : Settings) : Except Error Unit := do
  checkSingle .delimiter (s .separator)
  checkSingle .quote (s .quote)
  if (OutputMode.ofValue? (s .output)).isNone then throw (.unknownOutput (s .output))
  checkCount .jobs (s .jobs)
  checkCount .batchSize (s .batchSize)
  checkTimeout (s .execTimeout)

end Settings

end GraphFeed
