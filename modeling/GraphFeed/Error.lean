import GraphFeed.Text.Utf8
import GraphFeed.Value.Literal

/-!
# Causes of failure

Everything that can go wrong has a constructor of `Error`, which carries what its message says;
`Error.message` is the only place where the wording stands.

Failures fall into two classes. `Error.isReported` holds of those that a run expects of a bad
record, template, command, setting or database: a run lists them with the line they arose in. All
others, faults, end the step in which they arise.
-/

namespace GraphFeed

/-! ## 1. Parts of causes -/

/-- What is wrong with a field reference at a position. -/
inductive FieldFault
  | numberExpected
  | numberTooSmall
  | endReached
  | expected (c : CodePoint)
  | unexpected (c : CodePoint)
deriving DecidableEq

/-- Why a line cannot be split into fields. -/
inductive SplitFault
  /-- Text follows a line end that no quotes enclose. -/
  | textAfterLineEnd
  /-- A field is longer than the limit. -/
  | fieldTooLong (limit : Nat)
deriving DecidableEq

/-- The two marks of the record format. -/
inductive RecordMark
  | delimiter
  | quote
deriving DecidableEq, Repr

/-- Why a shell could not be started. -/
inductive StartFault
  | missing
  | notPermitted
  | noDirectory
deriving DecidableEq, Repr

/-- Why a time limit cannot be kept. -/
inductive LimitFault
  | infinite
  | undefined
  /-- Longer than one can wait. -/
  | beyondWait
  /-- Longer than a clock can tell. -/
  | beyondClock
  | noNumber (kind : Value.Kind)
deriving DecidableEq

/-- How a command failed. -/
inductive CommandCause
  /-- It ended with a status; a negative one is the number of a signal. -/
  | ended
  | timedOut (limit : Value)
  | notStarted (shell : Text) (fault : StartFault)
  | stated (reason : Text)

/-- A command that failed, with what is known of its end. -/
structure CommandFailure where
  command : Text
  cause : CommandCause
  status : Option Int
  errorOutput : Text

/-- A sentence on the database's refusal. -/
inductive WriteCause
  | connecting (uri : Text)
  | statement
  | committing
deriving DecidableEq

/-- Settings that must be positive. -/
inductive PositiveSetting
  | jobs
  | batchSize
  | timeout
deriving DecidableEq, Repr

/-- Comparisons of a setting with a whole number. -/
inductive Comparison
  | less
  | lessOrEqual
  | greater
deriving DecidableEq, Repr

/-- What a settings file holds where settings were expected. -/
inductive SectionFault
  /-- The document can hold no section. -/
  | noContainer (kind : Value.Kind)
  /-- A list cannot be asked for a section. -/
  | listDocument
  /-- A text cannot be asked for a section. -/
  | textDocument
  /-- The section is a single value. -/
  | single (kind : Value.Kind)
  /-- An entry of a section given as a list is no pair. -/
  | noPair (position : Nat)
  /-- An entry of a section given as a list has not two parts. -/
  | badLength (position length : Nat)
  /-- A list or mapping as name of a setting. -/
  | badKey (kind : Value.Kind)
deriving DecidableEq

/-! ## 2. Causes -/

/-- A cause of failure. -/
inductive Error
  -- templates
  | fieldReference (fault : FieldFault) (position : Nat) (text : Text)
  | fieldNumberTooLong (digits : Nat)
  | unterminated (rest : Text)
  | textIndex
  | listIndex
  -- records
  | splitting (fault : SplitFault) (line : Text)
  | recordMark (mark : RecordMark) (value : Value)
  | delimiterLength
  /-- A mark that is no text. -/
  | markKind (mark : RecordMark) (kind : Value.Kind)
  -- commands
  | command (failure : CommandFailure)
  | commandNul
  | shellKind (kind : Value.Kind)
  | commandLimit (fault : LimitFault)
  | undecodable (bytes : Utf8.Undecodable)
  | unencodable (surrogates : Utf8.Unencodable)
  -- instructions
  | emptyInstruction (text : Text)
  | noReading (text : Text)
  | badOperand (operand text : Text)
  | notANumber (operand : Text)
  | unknownOperator (symbol : Text)
  | notArithmetic
  | noSymbol
  -- batches
  | unknownStrategy (name : Text)
  | zeroBatchSize
  | noWorkers
  | batchLimit
  -- database
  | refused (message : Text)
  | write (cause : WriteCause) (message : Text)
  -- settings
  | settingsMissing (path : Text)
  | settingsUnreadable (path : Text)
  | settingsDirectory (path : Text)
  | settingsSection (fault : SectionFault)
  | notSingle (mark : RecordMark) (value : Value)
  | unknownOutput (value : Value)
  | invalidOutput (value : Value)
  | notPositive (setting : PositiveSetting) (value : Value)
  | incomparable (comparison : Comparison) (kind : Value.Kind)
  | notAnIndex (kind : Value.Kind)
  | noLength (kind : Value.Kind)
  | noOperation (kind : Value.Kind) (operation : String)

namespace Error

/-! ## 3. Messages -/

/-- The name of a mark of the record format. -/
def markName : RecordMark → String
  | .delimiter => "delimiter"
  | .quote => "quote"

/-- Why a field reference is refused. -/
def fieldReason : FieldFault → Text
  | .numberExpected => "expected a field number"
  | .numberTooSmall => "field numbers start at 1"
  | .endReached => "unexpected end of expression"
  | .expected c => .concat ["expected '", [c], "'"]
  | .unexpected c => .concat ["unexpected '", [c], "'"]

/-- Why a line is refused. -/
def splitReason : SplitFault → Text
  | .textAfterLineEnd => "new-line character seen in unquoted field - do you need to open the file in universal-newline mode?"
  | .fieldTooLong limit => .concat ["field larger than field limit (", Text.ofNat limit, ")"]

/-- Why a command failed. -/
def commandReason (f : CommandFailure) : Text :=
  match f.cause with
  | .ended =>
    let status : Text := match f.status with
      | some n => Text.ofInt n
      | none => "None"
    let errors := f.errorOutput.strip
    if errors.isEmpty then "exit status " ++ status
    else .concat ["exit status ", status, ": ", errors]
  | .timedOut limit => .concat ["timed out after ", limit.shown, " seconds"]
  | .notStarted shell fault =>
    let reason : Text := match fault with
      | .missing => "[Errno 2] No such file or directory: "
      | .notPermitted => "[Errno 13] Permission denied: "
      | .noDirectory => "[Errno 20] Not a directory: "
    .concat ["could not start ", shell, ": ", reason, shell.quoted]
  | .stated reason => reason

/-- Why a time limit is refused. -/
def limitReason : LimitFault → Text
  | .infinite => "cannot convert float infinity to integer"
  | .undefined => "cannot convert float NaN to integer"
  | .beyondWait => "timeout is too large"
  | .beyondClock => "timestamp too large to convert to C _PyTime_t"
  | .noNumber kind =>
    .concat ["unsupported operand type(s) for +: 'float' and '", kind.name, "'"]

/-- Which bytes are no text, and why. -/
def undecodableReason (u : Utf8.Undecodable) : Text :=
  let reason : Text := match u.reason with
    | .invalidStart => "invalid start byte"
    | .invalidContinuation => "invalid continuation byte"
    | .unexpectedEnd => "unexpected end of data"
  if u.first = u.last then
    .concat ["'utf-8' codec can't decode byte 0x", Text.hex 2 u.byte.toNat, " in position ",
      Text.ofNat u.first, ": ", reason]
  else
    .concat ["'utf-8' codec can't decode bytes in position ", Text.ofNat u.first, "-",
      Text.ofNat u.last, ": ", reason]

/-- Which surrogates cannot be written as bytes. -/
def unencodableReason (u : Utf8.Unencodable) : Text :=
  match u.surrogates with
  | [c] =>
    .concat ["'utf-8' codec can't encode character '\\u", Text.hex 4 c.val, "' in position ",
      Text.ofNat u.position, ": surrogates not allowed"]
  | cs =>
    .concat ["'utf-8' codec can't encode characters in position ", Text.ofNat u.position, "-",
      Text.ofNat (u.position + cs.length - 1), ": surrogates not allowed"]

/-- What is wrong with the section of a settings file. -/
def sectionReason : SectionFault → Text
  | .noContainer kind => .concat ["argument of type '", kind.name, "' is not iterable"]
  | .listDocument => "list indices must be integers or slices, not str"
  | .textDocument => "string indices must be integers, not 'str'"
  | .single kind => .concat ["'", kind.name, "' object is not iterable"]
  | .noPair position =>
    .concat ["cannot convert dictionary update sequence element #", Text.ofNat position,
      " to a sequence"]
  | .badLength position length =>
    .concat ["dictionary update sequence element #", Text.ofNat position, " has length ",
      Text.ofNat length, "; 2 is required"]
  | .badKey kind => .concat ["unhashable type: '", kind.name, "'"]

/-- The sign of a comparison. -/
def comparisonSign : Comparison → String
  | .less => "<"
  | .lessOrEqual => "<="
  | .greater => ">"

/-- The name of a setting that must be positive. -/
def positiveName : PositiveSetting → String
  | .jobs => "Jobs"
  | .batchSize => "Batch size"
  | .timeout => "Exec timeout"

/-- The message of a failure. -/
def message : Error → Text
  | fieldReference fault position text =>
    .concat ["Substitution expression parsing failed at position ", Text.ofNat position, " (",
      fieldReason fault, "): ", text]
  | fieldNumberTooLong digits =>
    .concat ["Exceeds the limit (", Text.ofNat maxIntegerDigits,
      " digits) for integer string conversion: value has ", Text.ofNat digits,
      " digits; use sys.set_int_max_str_digits() to increase the limit"]
  | unterminated rest => "Unterminated placeholder: " ++ rest
  | textIndex => "string index out of range"
  | listIndex => "list index out of range"
  | splitting fault line =>
    .concat ["Record splitting failed (", splitReason fault, "): ", line]
  | recordMark mark value =>
    .concat ["Record ", markName mark, " must be a single character, got ", value.literal]
  | delimiterLength => "\"delimiter\" must be a 1-character string"
  | markKind mark kind =>
    match mark with
    | .delimiter => .concat ["\"delimiter\" must be string, not ", kind.name]
    | .quote => .concat ["\"quotechar\" must be string or None, not ", kind.name]
  | command failure =>
    .concat ["Command failed (", commandReason failure, "): ", failure.command]
  | commandNul => "embedded null byte"
  | shellKind kind => "expected str, bytes or os.PathLike object, not " ++ (kind.name : Text)
  | commandLimit fault => limitReason fault
  | undecodable bytes => undecodableReason bytes
  | unencodable surrogates => unencodableReason surrogates
  | emptyInstruction text => "Empty expression: " ++ text
  | noReading text => "Expression parsing failed: " ++ text
  | badOperand operand text =>
    .concat ["Expression parsing failed (arithmetic operand is not a number: ", operand.quoted,
      "): ", text]
  | notANumber operand => "arithmetic operand is not a number: " ++ operand.quoted
  | unknownOperator symbol => "Unknown property operator: " ++ symbol
  | notArithmetic => "arithmetic() requires an arithmetic operator"
  | noSymbol => "SET has no arithmetic symbol"
  | unknownStrategy name => "Unknown processor type: " ++ name
  | zeroBatchSize => "range() arg 3 must not be zero"
  | noWorkers => "max_workers must be greater than 0"
  | batchLimit =>
    "Stop argument for islice() must be None or an integer: 0 <= x <= sys.maxsize."
  | refused text => text
  | write cause text =>
    match cause with
    | .connecting uri => .concat ["Failed to connect to Neo4j at ", uri, ": ", text]
    | .statement => text
    | .committing => "Commit failed: " ++ text
  | settingsMissing path => "Config file not found: " ++ path
  | settingsUnreadable path => "Error loading config from " ++ path
  | settingsDirectory path => "[Errno 21] Is a directory: " ++ path.quoted
  | settingsSection fault => sectionReason fault
  | notSingle mark value =>
    let name : Text := match mark with
      | .delimiter => "Separator"
      | .quote => "Quote"
    .concat [name, " must be a single character, got ", value.literal]
  | unknownOutput value =>
    .concat ["Unknown output type ", value.literal,
      " (expected one of none, pipe, interpolated, json)"]
  | invalidOutput value => value.literal ++ " is not a valid OutputType"
  | notPositive setting value =>
    .concat [positiveName setting, " must be positive, got ", value.shown]
  | incomparable comparison kind =>
    .concat ["'", comparisonSign comparison, "' not supported between instances of '", kind.name,
      "' and 'int'"]
  | notAnIndex kind => .concat ["'", kind.name, "' object cannot be interpreted as an integer"]
  | noLength kind => .concat ["object of type '", kind.name, "' has no len()"]
  | noOperation kind operation =>
    .concat ["'", kind.name, "' object has no attribute '", operation, "'"]

/-! ## 4. Classes -/

/-- The failures that a run expects and lists; all others are faults. -/
def isReported : Error → Bool
  | fieldReference .. | unterminated _ | splitting .. | recordMark .. | command _ => true
  | emptyInstruction _ | noReading _ | badOperand .. => true
  | write .. => true
  | settingsMissing _ | settingsUnreadable _ | notSingle .. | unknownOutput _ | notPositive .. => true
  | _ => false

end Error

end GraphFeed
