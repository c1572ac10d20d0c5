import GraphFeed.Shell.Script

/-!
# Lexemes of scripts

`lexemes` cuts a script into words, operators and line ends, each with the number of its line. Quotes,
values and the outputs of inner scripts are recognised here; an inner script stays text, and is read
when its output is asked for.

The list ends with `Lexeme.finish`, or with a fault where the script cannot be cut. A fault counts when
it is met, so that the lines before it are still carried out.

Part of the shell that the program is run with (`Shell.Runner`).
-/

namespace GraphFeed.Shell

/-! ## 1. Lexemes -/

/-- Why a script cannot be read. -/
inductive Fault
  | openQuote
  | openBrace
  | openBackquote
  | badChange
  | badLoopVariable
  | badFunctionName
  | unexpected (lexeme : Text) (expected : Option Text)
deriving DecidableEq

/-- The message of a fault. -/
def Fault.message : Fault → Text
  | .openQuote => "Syntax error: Unterminated quoted string"
  | .openBrace => "Syntax error: Missing '\x7d'"
  | .openBackquote => "Syntax error: EOF in backquote substitution"
  | .badChange => "Bad substitution"
  | .badLoopVariable => "Syntax error: Bad for loop variable"
  | .badFunctionName => "Syntax error: Bad function name"
  | .unexpected lexeme none => .concat ["Syntax error: ", lexeme, " unexpected"]
  | .unexpected lexeme (some expected) =>
    .concat ["Syntax error: ", lexeme, " unexpected (expecting ", expected, ")"]

/-- A part of a script. -/
inductive Lexeme
  | word (w : Word)
  | operator (sign : Text)
  /-- A descriptor right before a redirection. -/
  | descriptor (n : Nat)
  | lineEnd
  | finish
  | fault (f : Fault)

/-! ## 2. Characters -/

/-- The character is one of those of a string. -/
def oneOf (s : String) (c : CodePoint) : Bool := (Text.ofString s).any (· = c)

/-- A space or a tab. -/
def isGap (c : CodePoint) : Bool := c = (' ' : CodePoint) || c = ('\t' : CodePoint)

/-- Ends a word that is not quoted. -/
def isDelimiter (c : CodePoint) : Bool :=
  isGap c || oneOf "\n;&|<>()" c

/-- May begin the name of a variable. -/
def beginsName (c : CodePoint) : Bool :=
  c.between 'a' 'z' || c.between 'A' 'Z' || c = ('_' : CodePoint)

/-- May stand in the name of a variable. -/
def inName (c : CodePoint) : Bool := beginsName c || c.isDigit

/-- Names a value by a single character. -/
def isSpecialName (c : CodePoint) : Bool := oneOf "?$#@*!-" c

/-- The text is the name of a variable. -/
def isName : Text → Bool
  | [] => false
  | c :: t => beginsName c && t.all inName

/-! ## 3. Inner scripts -/

/-- Where in an inner script a reader is. -/
inductive Enclosure
  | bare
  | single
  | double
deriving DecidableEq

/-- The text up to the parenthesis that closes `depth + 1` open ones, and what follows it. -/
def untilClosed (enclosure : Enclosure) (depth : Nat) : Text → Option (Text × Text)
  | [] => none
  | c :: t =>
    let more (enclosure : Enclosure) (depth : Nat) : Option (Text × Text) :=
      (untilClosed enclosure depth t).map fun (inner, rest) => (c :: inner, rest)
    match enclosure with
    | .single => if c = ('\'' : CodePoint) then more .bare depth else more .single depth
    | .double => if c = ('"' : CodePoint) then more .bare depth else more .double depth
    | .bare =>
      if c = ('\'' : CodePoint) then more .single depth
      else if c = ('"' : CodePoint) then more .double depth
      else if c = ('(' : CodePoint) then more .bare (depth + 1)
      else if c = (')' : CodePoint) then
        match depth with
        | 0 => some ([], t)
        | depth + 1 => more .bare depth
      else more .bare depth

/-- The text up to the next backquote, its escapes undone, and what follows it. -/
def untilBackquote : Text → Option (Text × Text)
  | [] => none
  | [c] => if c = ('\x60' : CodePoint) then some ([], []) else none
  | c :: d :: t =>
    if c = ('\x60' : CodePoint) then some ([], d :: t)
    else if c = ('\\' : CodePoint) ∧ oneOf "\\\x60$" d then
      (untilBackquote t).map fun (inner, rest) => (d :: inner, rest)
    else (untilBackquote (d :: t)).map fun (inner, rest) => (c :: inner, rest)

/-! ## 4. Words -/

/-- What encloses the pieces that are read. -/
inductive Context
  /-- A word outside quotes. -/
  | bare
  /-- Double quotes. -/
  | double
  /-- The word of `${name…word}`. -/
  | braces (isQuoted : Bool)
  /-- An arithmetic expression. -/
  | sum

/-- Nothing but the end of quotes and the sign for values is special. -/
def Context.isQuoted : Context → Bool
  | .bare => false
  | .double => true
  | .braces isQuoted => isQuoted
  | .sum => true

/-- The character ends the pieces. -/
def Context.endsAt (context : Context) (c : CodePoint) : Bool :=
  match context with
  | .bare => isDelimiter c
  | .double => c = ('"' : CodePoint)
  | .braces _ => c = ('}' : CodePoint)
  | .sum => false

/-- A backslash before the character takes its meaning away, also in quotes. -/
def Context.escapes (context : Context) (c : CodePoint) : Bool :=
  match context with
  | .braces _ => oneOf "\\\x60$\"\x7d" c
  | _ => oneOf "\\\x60$\"" c

/-- Text before the pieces that follow, joined with a piece of the same kind. -/
def joinText (isQuoted : Bool) (text : Text) (pieces : List Piece) : List Piece :=
  match isQuoted, pieces with
  | true, .quoted t :: rest => .quoted (text ++ t) :: rest
  | false, .literal t :: rest => .literal (text ++ t) :: rest
  | true, pieces => .quoted text :: pieces
  | false, pieces => .literal text :: pieces

/-- The operator of `${name…word}` with what follows it. -/
def readChange : Text → Option (Change × Bool × Text)
  | [] => none
  | c :: t =>
    if c = ('%' : CodePoint) then
      match t with
      | d :: u => if d = ('%' : CodePoint) then some (.trimming true true, false, u)
        else some (.trimming true false, false, t)
      | [] => some (.trimming true false, false, [])
    else if c = ('#' : CodePoint) then
      match t with
      | d :: u => if d = ('#' : CodePoint) then some (.trimming false true, false, u)
        else some (.trimming false false, false, t)
      | [] => some (.trimming false false, false, [])
    else
      let emptyToo := c = (':' : CodePoint)
      match if emptyToo then t else c :: t with
      | [] => none
      | d :: u =>
        if d = ('-' : CodePoint) then some (.replacement, emptyToo, u)
        else if d = ('=' : CodePoint) then some (.assignment, emptyToo, u)
        else if d = ('?' : CodePoint) then some (.refusal, emptyToo, u)
        else if d = ('+' : CodePoint) then some (.alternative, emptyToo, u)
        else none

/-- The name at the start of a text, and what follows it. -/
def readName : Text → Text × Text
  | [] => ([], [])
  | c :: t =>
    if beginsName c then (c :: t.takeWhile inName, t.dropWhile inName)
    else if c.isDigit then (c :: t.takeWhile CodePoint.isDigit, t.dropWhile CodePoint.isDigit)
    else if isSpecialName c then ([c], t)
    else ([], c :: t)

mutual

/-- The pieces at the start of a text, up to what ends the context, and the rest from there on. -/
def readPieces (fuel : Nat) (context : Context) (t : Text) : Except Fault (List Piece × Text) :=
  match fuel with
  | 0 => .error .openQuote
  | fuel + 1 =>
    match t with
    | [] =>
      match context with
      | .bare | .sum => .ok ([], [])
      | .double | .braces true => .error .openQuote
      | .braces false => .error .openBrace
    | c :: t =>
      let more (pieces : List Piece → List Piece) (t : Text) : Except Fault (List Piece × Text) :=
        (readPieces fuel context t).map fun (rest, t) => (pieces rest, t)
      if context.endsAt c then .ok ([], c :: t)
      else if c = ('\\' : CodePoint) then
        match t with
        | [] => .ok (joinText context.isQuoted [c] [], [])
        | d :: u =>
          if d = ('\n' : CodePoint) then more id u
          else if context.isQuoted && !context.escapes d then
            more (joinText true [c]) t
          else more (joinText true [d]) u
      else if c = ('$' : CodePoint) then
        match readValue fuel context.isQuoted t with
        | .error e => .error e
        | .ok (piece, t) => more (piece :: ·) t
      else if c = ('\x60' : CodePoint) then
        match untilBackquote t with
        | none => .error .openBackquote
        | some (script, t) => more (.output script context.isQuoted :: ·) t
      else if c = ('"' : CodePoint) ∧ (context.isQuoted = false) then
        match readPieces fuel .double t with
        | .error e => .error e
        | .ok (pieces, t) =>
          more (fun rest => (if pieces.isEmpty then [.quoted []] else pieces) ++ rest) (t.drop 1)
      else if c = ('\'' : CodePoint) ∧ (context.isQuoted = false) then
        let inner := t.takeWhile (· ≠ ('\'' : CodePoint))
        match t.drop inner.length with
        | [] => .error .openQuote
        | _ :: t => more (joinText true inner) t
      else more (joinText context.isQuoted [c]) t

/-- The value that a dollar sign before the text asks for, and the rest. -/
def readValue (fuel : Nat) (isQuoted : Bool) (t : Text) : Except Fault (Piece × Text) :=
  match fuel with
  | 0 => .error .openQuote
  | fuel + 1 =>
    match t with
    | [] => .ok (.quoted ['$'], [])
    | c :: t =>
      if c = ('(' : CodePoint) then
        match untilClosed .bare 0 t with
        | none =>
          .error (if isQuoted then .openQuote else .unexpected "end of file" (some "\")\""))
        | some (inner, t) =>
          match inner, inner.getLast? with
          | '(' :: expression, some ')' =>
            (readPieces fuel .sum expression.dropLast).map fun (pieces, _) =>
              (.arithmetic pieces, t)
          | _, _ => .ok (.output inner isQuoted, t)
      else if c = ('{' : CodePoint) then readBraces fuel isQuoted t
      else if c.isDigit || isSpecialName c then .ok (.parameter [c] isQuoted, t)
      else
        match readName (c :: t) with
        | ([], t) => .ok (if isQuoted then .quoted ['$'] else .literal ['$'], t)
        | (name, t) => .ok (.parameter name isQuoted, t)

/-- The value that `${` before the text asks for, and what follows its closing brace. -/
def readBraces (fuel : Nat) (isQuoted : Bool) (t : Text) : Except Fault (Piece × Text) :=
  match fuel with
  | 0 => .error .openBrace
  | fuel + 1 =>
    let sized : Option (Text × Text) :=
      match t with
      | '#' :: u =>
        match readName u with
        | (name, '}' :: t) => if name.isEmpty then none else some (name, t)
        | _ => none
      | _ => none
    match sized with
    | some (name, t) => .ok (.size name, t)
    | none =>
      match readName t with
      | (_, []) => .error (if isQuoted then .openQuote else .openBrace)
      | (name, c :: t) =>
        if name.isEmpty then .error .badChange
        else if c = ('}' : CodePoint) then .ok (.parameter name isQuoted, t)
        else
          match readChange (c :: t) with
          | none => .error .badChange
          | some (change, emptyToo, t) =>
            match readPieces fuel (.braces isQuoted) t with
            | .error e => .error e
            | .ok (word, t) => .ok (.changed name change emptyToo word isQuoted, t.drop 1)

end

/-! ## 5. Scripts -/

/-- The operators, longer ones before their beginnings. -/
def operators : List String :=
  [";;", "&&", "||", ">>", ">&", "<&", ">|", ";", "&", "|", "<", ">", "(", ")"]

/-- The operator at the start of a text, and the rest. -/
def readOperator? (t : Text) : Option (Text × Text) :=
  (operators.find? fun o => t.startsWith (Text.ofString o)).map fun o =>
    (Text.ofString o, t.drop (Text.ofString o).length)

/-- The lexemes of a script from a line on. -/
def lexemesFrom (fuel line : Nat) (t : Text) : List (Nat × Lexeme) :=
  match fuel with
  | 0 => [(line, .finish)]
  | fuel + 1 =>
    match t with
    | [] => [(line, .finish)]
    | c :: u =>
      if isGap c then lexemesFrom fuel line u
      else if c = ('\n' : CodePoint) then (line, .lineEnd) :: lexemesFrom fuel (line + 1) u
      else if c = ('#' : CodePoint) then
        lexemesFrom fuel line (u.dropWhile (· ≠ ('\n' : CodePoint)))
      else if c = ('\\' : CodePoint) ∧ u.head? = some ('\n' : CodePoint) then
        lexemesFrom fuel (line + 1) (u.drop 1)
      else if c.isDigit ∧ (u.head? = some ('<' : CodePoint) ∨ u.head? = some ('>' : CodePoint)) then
        (line, .descriptor c.digit) :: lexemesFrom fuel line u
      else
        match readOperator? t with
        | some (o, u) => (line, .operator o) :: lexemesFrom fuel line u
        | none =>
          match readPieces (2 * t.length + 2) .bare t with
          | .error e => [(line + t.count ('\n' : CodePoint), .fault e)]
          | .ok (pieces, u) =>
            let lines := (t.take (t.length - u.length)).count ('\n' : CodePoint)
            (line, .word pieces) :: lexemesFrom fuel (line + lines) u

/-- The lexemes of a script. -/
def lexemes (script : Text) : List (Nat × Lexeme) := lexemesFrom (script.length + 1) 1 script

end GraphFeed.Shell
