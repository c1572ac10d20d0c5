import GraphFeed.Number.Basic
import GraphFeed.Shell.Arithmetic

/-!
# Formats

Backslash escapes stand for characters, in what is echoed and in formats. A format prints arguments
at its directives and is used again as long as arguments are left.

Part of the shell that the program is run with (`Shell.Runner`).
-/

namespace GraphFeed.Shell.Format

/-! ## 1. Escapes -/

/-- The characters that a letter after a backslash stands for. -/
def escapeLetters : List (Char × Nat) :=
  [('\\', 92), ('a', 7), ('b', 8), ('e', 27), ('f', 12), ('n', 10), ('r', 13), ('t', 9), ('v', 11)]

/-- An octal digit. -/
def isOctal (c : CodePoint) : Bool := c.between '0' '7'

/-- The byte that some octal digits name. -/
def octalByte (digits : Text) : CodePoint :=
  .ofNat (digits.foldl (fun n c => 8 * n + c.digit) 0 % 256)

/-- The character that a text after a backslash names, and the rest. A backslash that begins no
    escape stands for itself. -/
def readEscape (t : Text) : CodePoint × Text :=
  match t with
  | [] => ('\\', [])
  | c :: u =>
    if isOctal c then
      let digits := (t.take 3).takeWhile isOctal
      (octalByte digits, t.drop digits.length)
    else
      match escapeLetters.find? fun e => CodePoint.ofChar e.1 = c with
      | some (_, n) => (.ofNat n, u)
      | none => ('\\', t)

/-- The text with its escapes undone, and whether `\c` has stopped it. After `\0` three more octal
    digits may follow. -/
def unescape (fuel : Nat) (t : Text) : Text × Bool :=
  match fuel with
  | 0 => ([], false)
  | fuel + 1 =>
    match t with
    | [] => ([], false)
    | c :: u =>
      let more (c : CodePoint) (rest : Text) : Text × Bool :=
        let (t, stopped) := unescape fuel rest
        (c :: t, stopped)
      if c = ('\\' : CodePoint) then
        match u with
        | [] => more c []
        | d :: v =>
          if d = ('c' : CodePoint) then ([], true)
          else if d = ('0' : CodePoint) then
            let digits := (v.take 3).takeWhile isOctal
            more (octalByte digits) (v.drop digits.length)
          else
            let (e, rest) := readEscape u
            more e rest
      else more c u

/-- What is echoed for some arguments, with blanks between them. -/
def echoed (lineEnd : Bool) : List Text → Text
  | [] => if lineEnd then "\n" else ""
  | a :: rest =>
    let (t, stopped) := unescape (a.length + 1) a
    if stopped then t
    else if rest.isEmpty then t ++ (if lineEnd then "\n" else "" : String)
    else .concat [t, " ", echoed lineEnd rest]

/-! ## 2. Numbers -/

/-- An argument as a number: the number, and the message if it is none. -/
def argumentNumber (t : Text) : Int × Option Text :=
  match t.dropWhile isFieldStart with
  | [] => (0, if t.isEmpty then none else some (t ++ ": expected numeric value"))
  | c :: u =>
    if c = ('"' : CodePoint) ∨ c = ('\'' : CodePoint) then
      (((u.head?.map (·.val)).getD 0 : Nat), none)
    else
      let (isNegative, digits) :=
        if c = ('-' : CodePoint) then (true, u)
        else if c = ('+' : CodePoint) then (false, u)
        else (false, c :: u)
      if (digits.head?.map CodePoint.isDigit).getD false then
        let (n, rest) := Arithmetic.readNumber digits
        let n : Int := if isNegative then -(n : Int) else n
        if n < Int64.minValue.toInt ∨ Int64.maxValue.toInt < n then
          (if n < 0 then Int64.minValue.toInt else Int64.maxValue.toInt, some (t ++ ": Numerical result out of range"))
        else (n, if rest.isEmpty then none else some (t ++ ": not completely converted"))
      else (0, some (t ++ ": expected numeric value"))
where
  /-- A blank before a number. -/
  isFieldStart (c : CodePoint) : Bool := isGap c || c = ('\n' : CodePoint)

/-- The digits of a number in a base, in lower case. -/
def digitsOf (base n : Nat) : Text := (Nat.toDigits base n).map CodePoint.ofChar

/-- A number with a certain count of places after the point. -/
def fixed (places : Nat) (x : Binary64) : Text :=
  match x with
  | .finite isNegative mantissa exponent =>
    let (num, den) := Binary64.magnitude mantissa exponent
    let digits := digitsOf 10 (Binary64.roundToEven (num * Nat.pow 10 places) den)
    let digits : Text := List.replicate (places + 1 - digits.length) ('0' : CodePoint) ++ digits
    let whole := digits.take (digits.length - places)
    let sign : Text := if isNegative then "-" else ""
    if places = 0 then sign ++ whole
    else .concat [sign, whole, ".", digits.drop (digits.length - places)]
  | x => x.text

/-! ## 3. Directives -/

/-- A directive of a format. -/
structure Directive where
  flags : Text
  width : Nat
  precision : Option Nat
  letter : CodePoint

/-- A directive has a flag. -/
def Directive.has (d : Directive) (flag : Char) : Bool := d.flags.any (· = CodePoint.ofChar flag)

/-- A text filled up to the width of a directive. -/
def Directive.pad (d : Directive) (t : Text) : Text :=
  let blanks : Text := List.replicate (d.width - t.length) ' '
  if d.has '-' then t ++ blanks else blanks ++ t

/-- A number with what stands before it, filled up with zeros or blanks. -/
def Directive.padNumber (d : Directive) (before digits : Text) : Text :=
  let digits : Text := List.replicate (d.precision.getD 1 - digits.length) ('0' : CodePoint) ++ digits
  if d.has '0' && !d.has '-' && d.precision.isNone then
    before ++ List.replicate (d.width - before.length - digits.length) ('0' : CodePoint) ++ digits
  else d.pad (before ++ digits)

/-- A number as a directive prints it. -/
def Directive.number (d : Directive) (n : Int) : Text :=
  let sign : Text := if n < 0 then "-" else if d.has '+' then "+" else if d.has ' ' then " " else ""
  let bits := (n % (Nat.pow 2 64 : Int)).toNat
  let marked (mark : String) : Text := if d.has '#' && bits != 0 then mark else ""
  match d.letter.toChar with
  | 'o' => d.padNumber (marked "0") (digitsOf 8 bits)
  | 'x' => d.padNumber (marked "0x") (digitsOf 16 bits)
  | 'X' => d.padNumber (marked "0X") ((digitsOf 16 bits).map fun c =>
      if c.between 'a' 'f' then .ofNat (c.val - 32) else c)
  | 'u' => d.padNumber [] (digitsOf 10 bits)
  | _ => d.padNumber sign (digitsOf 10 n.natAbs)

/-- What printing has led to: the output, messages, and whether the end was reached as it should be. -/
structure Printed where
  output : Text
  messages : List Text
  status : Nat
  /-- Printing has come to its end before the end of the format. -/
  stopped : Bool

/-- The number that a `*` in a directive takes from the arguments, or the one written there. -/
def readSize (t : Text) (arguments : List Text) : Option Nat × Bool × Text × List Text :=
  match t with
  | '*' :: u =>
    let (n, _) := argumentNumber (arguments.head?.getD [])
    (some n.natAbs, decide (n < 0), u, arguments.drop 1)
  | t =>
    let digits := t.takeWhile CodePoint.isDigit
    (if digits.isEmpty then none else some (digits.foldl (fun n c => 10 * n + c.digit) 0), false,
      t.drop digits.length, arguments)

/-- Prints a directive with an argument. -/
def Directive.print (d : Directive) (argument : Text) : Option Printed :=
  match d.letter.toChar with
  | 's' => some ⟨d.pad (argument.take (d.precision.getD argument.length)), [], 0, false⟩
  | 'b' =>
    let (t, stopped) := unescape (argument.length + 1) argument
    some ⟨d.pad (t.take (d.precision.getD t.length)), [], 0, stopped⟩
  | 'c' => some ⟨d.pad [argument.head?.getD (.ofNat 0)], [], 0, false⟩
  | 'd' | 'i' | 'o' | 'u' | 'x' | 'X' =>
    let (n, message) := argumentNumber argument
    some ⟨d.number n, message.toList, if message.isSome then 1 else 0, false⟩
  | 'f' =>
    match if argument.isEmpty then some (Binary64.ofInt 0) else readFloat? argument with
    | some x => some ⟨d.pad (fixed (d.precision.getD 6) x), [], 0, false⟩
    | none => some ⟨d.pad (fixed (d.precision.getD 6) (Binary64.ofInt 0)),
        [argument ++ ": expected numeric value"], 1, false⟩
  | _ => none

/-- Prints a format once. Gives what is printed, the arguments that are left, and whether a directive
    has asked for an argument. -/
def printOnce (fuel : Nat) (format : Text) (arguments : List Text) (asked : Bool) :
    Printed × List Text × Bool :=
  match fuel with
  | 0 => (⟨[], [], 0, false⟩, arguments, asked)
  | fuel + 1 =>
    let stop (message : Text) : Printed × List Text × Bool :=
      (⟨[], [message], 2, true⟩, arguments, asked)
    let more (p : Printed) (rest : Text) (arguments : List Text) (asked : Bool) :
        Printed × List Text × Bool :=
      if p.stopped then (p, arguments, asked)
      else
        let (q, arguments, asked) := printOnce fuel rest arguments asked
        (⟨p.output ++ q.output, p.messages ++ q.messages, max p.status q.status, q.stopped⟩,
          arguments, asked)
    let plain (c : CodePoint) : Printed := ⟨[c], [], 0, false⟩
    match format with
    | [] => (⟨[], [], 0, false⟩, arguments, asked)
    | c :: t =>
      if c = ('\\' : CodePoint) then
        let (e, rest) := readEscape t
        more (plain e) rest arguments asked
      else if c = ('%' : CodePoint) then
        match t with
        | [] => stop "missing format character"
        | d :: u =>
          if d = ('%' : CodePoint) then more (plain d) u arguments asked
          else
            let flags := t.takeWhile (oneOf "#-+ 0")
            let (width, isNegative, rest, left) := readSize (t.drop flags.length) arguments
            let flags := if isNegative then ('-' : CodePoint) :: flags else flags
            let (precision, rest, left) :=
              match rest with
              | '.' :: rest =>
                let (precision, _, rest, left) := readSize rest left
                (some (precision.getD 0), rest, left)
              | rest => (none, rest, left)
            match rest with
            | [] => stop "missing format character"
            | letter :: rest =>
              let directive : Directive := ⟨flags, width.getD 0, precision, letter⟩
              match directive.print (left.head?.getD []) with
              | some p => more p rest (left.drop 1) true
              | none =>
                stop (.concat ["%", t.take (t.length - rest.length), ": invalid directive"])
      else more (plain c) t arguments asked

/-- Prints a format until no arguments are left. -/
def print (fuel : Nat) (format : Text) (arguments : List Text) : Printed :=
  match fuel with
  | 0 => ⟨[], [], 0, false⟩
  | fuel + 1 =>
    let (p, left, asked) := printOnce (format.length + 1) format arguments false
    if p.stopped || left.isEmpty || !asked then p
    else
      let q := print fuel format left
      ⟨p.output ++ q.output, p.messages ++ q.messages, max p.status q.status, q.stopped⟩

end GraphFeed.Shell.Format
