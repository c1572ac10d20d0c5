import GraphFeed.Text.Basic

/-!
# Log records

A log record has a level, the part of the program it comes from, and a message. Logs are kept with
the newest record first.
-/

namespace GraphFeed

/-- The levels, from the least to the most severe. -/
inductive Level
  | debug
  | info
  | warning
  | error
deriving DecidableEq, Repr

/-- The name of a level. -/
def Level.name : Level → String
  | .debug => "DEBUG"
  | .info => "INFO"
  | .warning => "WARNING"
  | .error => "ERROR"

/-- The parts of the program that write to the log. -/
inductive Source
  | run
  | connection
  | statements
  | sequentialBatches
  | parallelBatches
  | templates
  | commandLine
deriving DecidableEq, Repr

/-- The name of a part as the log shows it. -/
def Source.name : Source → String
  | .run => "neopipe.pipeline"
  | .connection => "neopipe.tools.neo4j_tool"
  | .statements => "neopipe.utils.cypher_builder"
  | .sequentialBatches => "SequentialBatchProcessor"
  | .parallelBatches => "ParallelBatchProcessor"
  | .templates => "TemplateExpander"
  | .commandLine => "neopipe_cli"

/-- One log record. -/
structure LogRecord where
  level : Level
  source : Source
  message : Text
deriving DecidableEq

/-- The record as the error output shows it, without its time. -/
def LogRecord.line (r : LogRecord) : Text :=
  .concat [r.source.name, " - ", r.level.name, " - ", r.message]

end GraphFeed
