import GraphFeed.Shell.Lexeme

/-!
# Arithmetic

The expressions of `$((…))` are those of integers of 64 bits: the usual operators with their usual
strength, comparisons and connectives with the values 0 and 1, and names of variables, where a
variable without a value is 0.

Part of the shell that the program is run with (`Shell.Runner`).
-/

namespace GraphFeed.Shell.Arithmetic

/-! ## 1. Numbers -/

/-- Why an expression has no value. -/
inductive Fault
  | primaryExpected
  | closingExpected
  | endExpected
  | divisionByZero
  | illegalNumber (t : Text)
deriving DecidableEq

/-- The value of digits in a base, as far as they are digits of it. -/
def digitsIn (base : Nat) (value : Nat) : Text → Nat × Text
  | [] => (value, [])
  | c :: t =>
    match c.hex? with
    | some d => if d < base then digitsIn base (value * base + d) t else (value, c :: t)
    | none => (value, c :: t)

/-- The number at the start of a text that starts with a digit: hexadecimal after `0x`, octal after
    `0`, else decimal. -/
def readNumber (t : Text) : Nat × Text :=
  match t with
  | c :: d :: u =>
    if c = ('0' : CodePoint) then
      if d = ('x' : CodePoint) ∨ d = ('X' : CodePoint) then digitsIn 16 0 u
      else digitsIn 8 0 (d :: u)
    else digitsIn 10 0 t
  | t => digitsIn 10 0 t

/-- The number that a whole text is, with a sign or not. -/
def number? (t : Text) : Option Int :=
  let (isNegative, digits) : Bool × Text :=
    match t with
    | c :: u => if c = ('-' : CodePoint) then (true, u) else if c = ('+' : CodePoint) then (false, u)
      else (false, t)
    | [] => (false, [])
  match digits with
  | c :: _ =>
    if c.isDigit then
      match readNumber digits with
      | (n, []) => some (if isNegative then -(n : Int) else n)
      | _ => none
    else none
  | [] => none

/-! ## 2. Expressions -/

/-- The operators of two operands with their strength, longer ones before their beginnings. -/
def binaryOperators : List (String × Nat) :=
  [("||", 1), ("&&", 2), ("==", 6), ("!=", 6), ("<<", 8), (">>", 8), ("<=", 7), (">=", 7),
    ("|", 3), ("^", 4), ("&", 5), ("<", 7), (">", 7), ("+", 9), ("-", 9), ("*", 10), ("/", 10),
    ("%", 10)]

/-- 1 where a condition holds, else 0. -/
def ofBool (b : Bool) : Int := if b then 1 else 0

/-- The number from -2⁶³ to below 2⁶³ that differs from a number by a multiple of 2⁶⁴. -/
def wrapped (n : Int) : Int := Int.bmod n (Nat.pow 2 64)

/-- The value of an operation. Quotients are cut off toward zero. -/
def apply (operator : String) (a b : Int) : Except Fault Int :=
  match operator with
  | "||" => .ok (ofBool (a != 0 || b != 0))
  | "&&" => .ok (ofBool (a != 0 && b != 0))
  | "==" => .ok (ofBool (a == b))
  | "!=" => .ok (ofBool (a != b))
  | "<=" => .ok (ofBool (decide (a ≤ b)))
  | ">=" => .ok (ofBool (decide (b ≤ a)))
  | "<" => .ok (ofBool (decide (a < b)))
  | ">" => .ok (ofBool (decide (b < a)))
  | "<<" => .ok (wrapped (a * (Nat.pow 2 (b % 64).toNat : Int)))
  | ">>" => .ok (a / (Nat.pow 2 (b % 64).toNat : Int))
  | "|" => .ok (BitVec.ofInt 64 a ||| BitVec.ofInt 64 b).toInt
  | "^" => .ok (BitVec.ofInt 64 a ^^^ BitVec.ofInt 64 b).toInt
  | "&" => .ok (BitVec.ofInt 64 a &&& BitVec.ofInt 64 b).toInt
  | "+" => .ok (wrapped (a + b))
  | "-" => .ok (wrapped (a - b))
  | "*" => .ok (wrapped (a * b))
  | "/" => if b = 0 then .error .divisionByZero else .ok (wrapped (Int.tdiv a b))
  | _ => if b = 0 then .error .divisionByZero else .ok (Int.tmod a b)

/-- The text without the blanks at its start. -/
def skipGaps (t : Text) : Text := t.dropWhile fun c => isGap c || c = ('\n' : CodePoint)

/-- The operator of two operands at the start of a text. -/
def operator? (t : Text) : Option (String × Nat × Text) :=
  (binaryOperators.find? fun (o, _) => t.startsWith (Text.ofString o)).map fun (o, strength) =>
    (o, strength, t.drop o.length)

mutual

/-- An operand, and the rest. -/
def readOperand (fuel : Nat) (lookup : Text → Option Text) (t : Text) : Except Fault (Int × Text) :=
  match fuel with
  | 0 => .error .primaryExpected
  | fuel + 1 =>
    match skipGaps t with
    | [] => .error .primaryExpected
    | c :: u =>
      let changed (f : Int → Int) : Except Fault (Int × Text) :=
        (readOperand fuel lookup u).map fun (n, rest) => (f n, rest)
      if c = ('-' : CodePoint) then changed (- ·)
      else if c = ('+' : CodePoint) then changed id
      else if c = ('!' : CodePoint) then changed fun n => ofBool (n == 0)
      else if c = ('~' : CodePoint) then changed fun n => -n - 1
      else if c = ('(' : CodePoint) then
        match readExpression fuel lookup 0 u with
        | .error e => .error e
        | .ok (n, rest) =>
          match skipGaps rest with
          | ')' :: rest => .ok (n, rest)
          | _ => .error .closingExpected
      else if c.isDigit then
        let (n, rest) := readNumber (c :: u)
        .ok (wrapped n, rest)
      else if beginsName c then
        let (name, rest) := readName (c :: u)
        match (lookup name).getD [] with
        | [] => .ok (0, rest)
        | value =>
          match number? value with
          | some n => .ok (n, rest)
          | none => .error (.illegalNumber value)
      else .error .primaryExpected

/-- An expression whose operators are stronger than a limit, and the rest. -/
def readExpression (fuel : Nat) (lookup : Text → Option Text) (limit : Nat) (t : Text) :
    Except Fault (Int × Text) :=
  match fuel with
  | 0 => .error .primaryExpected
  | fuel + 1 =>
    match readOperand fuel lookup t with
    | .error e => .error e
    | .ok (n, rest) => readRest fuel lookup limit n rest

/-- What follows the first operand of an expression. -/
def readRest (fuel : Nat) (lookup : Text → Option Text) (limit : Nat) (first : Int) (t : Text) :
    Except Fault (Int × Text) :=
  match fuel with
  | 0 => .error .primaryExpected
  | fuel + 1 =>
    let t := skipGaps t
    match operator? t with
    | some (operator, strength, rest) =>
      if limit < strength then
        match readExpression fuel lookup strength rest with
        | .error e => .error e
        | .ok (second, rest) =>
          match apply operator first second with
          | .error e => .error e
          | .ok n => readRest fuel lookup limit n rest
      else .ok (first, t)
    | none =>
      match limit, t with
      | 0, '?' :: rest =>
        match readExpression fuel lookup 0 rest with
        | .error e => .error e
        | .ok (second, rest) =>
          match skipGaps rest with
          | ':' :: rest =>
            (readExpression fuel lookup 0 rest).map fun (third, rest) =>
              (if first = 0 then third else second, rest)
          | _ => .error .primaryExpected
      | _, t => .ok (first, t)

end

/-- The value of an expression; an empty one is 0. -/
def evaluate (lookup : Text → Option Text) (t : Text) : Except Fault Int :=
  if (skipGaps t).isEmpty then .ok 0
  else
    match readExpression (3 * t.length + 3) lookup 0 t with
    | .error e => .error e
    | .ok (n, rest) => if (skipGaps rest).isEmpty then .ok n else .error .endExpected

/-- The message of a fault in an expression. -/
def Fault.message (expression : Text) : Fault → Text
  | .primaryExpected =>
    .concat ["arithmetic expression: expecting primary: \"", expression, "\""]
  | .closingExpected => .concat ["arithmetic expression: expecting ')': \"", expression, "\""]
  | .endExpected => .concat ["arithmetic expression: expecting EOF: \"", expression, "\""]
  | .divisionByZero =>
    .concat ["arithmetic expression: division by zero: \"", expression, "\""]
  | .illegalNumber t => "Illegal number: " ++ t

end GraphFeed.Shell.Arithmetic
