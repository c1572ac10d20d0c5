import GraphFeed.Settings.Basic

/-!
# Options of the command line

Each option has a long name, most have a short one, and it takes no value or a value of a certain
form. Most options give a setting a value.
-/

namespace GraphFeed.CommandLine

/-! ## 1. Options -/

/-- The options of the command line. -/
inductive Flag
  | help
  | version
  | keepBlank
  | separator
  | quote
  | jobs
  | output
  | testOnly
  | verbose
  | endQuery
  | showResults
  | stream
  | shell
  | execTimeout
  | batchSize
  | config
  | uri
  | user
  | password
  | database
deriving DecidableEq, Repr

/-- What follows an option. -/
inductive Operand
  | nothing
  | text
  | outputMode
  | integer
  | float
deriving DecidableEq, Repr

namespace Flag

/-- All options, in the order in which they are listed. -/
def all : List Flag :=
  [.help, .version, .keepBlank, .separator, .quote, .jobs, .output, .testOnly, .verbose, .endQuery,
    .showResults, .stream, .shell, .execTimeout, .batchSize, .config, .uri, .user, .password,
    .database]

/-- The long name of an option. -/
def long : Flag → Text
  | .help => "--help"
  | .version => "--version"
  | .keepBlank => "--keep-blank"
  | .separator => "--separator"
  | .quote => "--quote"
  | .jobs => "--jobs"
  | .output => "--output"
  | .testOnly => "--testonly"
  | .verbose => "--verbose"
  | .endQuery => "--end-query"
  | .showResults => "--show-results"
  | .stream => "--stream"
  | .shell => "--shell"
  | .execTimeout => "--exec-timeout"
  | .batchSize => "--batch-size"
  | .config => "--config"
  | .uri => "--neo4j-uri"
  | .user => "--neo4j-user"
  | .password => "--neo4j-password"
  | .database => "--neo4j-database"

/-- The letter of the short name of an option. -/
def letter? : Flag → Option CodePoint
  | .help => some 'h'
  | .keepBlank => some 'b'
  | .separator => some 's'
  | .quote => some 'q'
  | .jobs => some 'j'
  | .output => some 'o'
  | .testOnly => some 't'
  | .verbose => some 'v'
  | .endQuery => some 'e'
  | .showResults => some 'r'
  | _ => none

/-- What follows an option. -/
def operand : Flag → Operand
  | .help | .version | .keepBlank | .testOnly | .verbose | .showResults | .stream => .nothing
  | .jobs | .batchSize => .integer
  | .execTimeout => .float
  | .output => .outputMode
  | _ => .text

/-- A value follows an option. -/
def takesValue (f : Flag) : Bool := f.operand != .nothing

/-- The setting that an option gives a value. -/
def setting? : Flag → Option Setting
  | .keepBlank => some .keepBlank
  | .separator => some .separator
  | .quote => some .quote
  | .jobs => some .jobs
  | .output => some .output
  | .testOnly => some .testOnly
  | .verbose => some .verbosity
  | .endQuery => some .endQuery
  | .showResults => some .showResults
  | .stream => some .stream
  | .shell => some .shell
  | .execTimeout => some .execTimeout
  | .batchSize => some .batchSize
  | .uri => some .uri
  | .user => some .user
  | .password => some .password
  | .database => some .database
  | .help | .version | .config => none

/-- The option with a letter. -/
def ofLetter? (c : CodePoint) : Option Flag := all.find? fun f => f.letter? = some c

/-- The option with a long name. -/
def ofLong? (t : Text) : Option Flag := all.find? fun f => f.long = t

/-- The names of an option, as messages give them. -/
def label (f : Flag) : Text :=
  match f.letter? with
  | some c => .concat ["-", [c], "/", f.long]
  | none => f.long

end Flag

/-! ## 2. What is wrong with a command line -/

/-- Why a command line is refused. -/
inductive UsageFault
  | ambiguous (given : Text) (candidates : List Flag)
  | valueMissing (f : Flag)
  /-- A value is attached to an option that takes none. -/
  | valueUseless (f : Flag) (value : Text)
  | badOutput (value : Text)
  | badInteger (f : Flag) (value : Text)
  | badFloat (f : Flag) (value : Text)
  | unrecognized (arguments : List Text)
deriving DecidableEq

/-- The message of a fault. -/
def UsageFault.message : UsageFault → Text
  | .ambiguous given candidates =>
    .concat ["ambiguous option: ", given, " could match ",
      Text.join ", " (candidates.map Flag.long)]
  | .valueMissing f => of f ["expected one argument"]
  | .valueUseless f value => of f ["ignored explicit argument ", value.quoted]
  | .badOutput value =>
    of .output ["invalid choice: ", value.quoted, " (choose from ",
      Text.join ", " (OutputMode.all.map fun m => (m.name : Text).quoted), ")"]
  | .badInteger f value => of f ["invalid int value: ", value.quoted]
  | .badFloat f value => of f ["invalid float value: ", value.quoted]
  | .unrecognized arguments => "unrecognized arguments: " ++ Text.join " " arguments
where
  /-- A message about an option. -/
  of (f : Flag) (parts : List Text) : Text := .concat ("argument " :: f.label :: ": " :: parts)

end GraphFeed.CommandLine
