import GraphFeed.Value.Basic

/-!
# Plain scalars

A scalar without quotes is null, a truth value, an integer or a floating point number if it has the
form of one, and a text otherwise. The forms are those of YAML 1.1: `yes` and `off` are truth
values, a zero in front makes an octal number, colons separate parts in base sixty, and underscores
between digits do not count.
-/

namespace GraphFeed.Yaml

/-- One of the given spellings. -/
def isOneOf (spellings : List String) (t : Text) : Bool := spellings.any fun s => t = Text.ofString s

/-! ## 1. Integers -/

/-- The number that digits of a base stand for, underscores aside; `none` if something else stands
    among them or they are none. -/
def digits? (base : Nat) (t : Text) : Option Nat :=
  let digits := t.filter fun c => c ≠ ('_' : CodePoint)
  if digits.isEmpty then none
  else
    digits.foldl (fun n c => do
      let n ← n
      let d ← c.hex?
      if d < base then some (base * n + d) else none) (some 0)

/-- A part of a number in base sixty behind the first one: one digit, or two of which the first is
    below six. -/
def sixtieth? : Text → Option Nat
  | [a] => if a.isDigit then some a.digit else none
  | [a, b] => if a.between '0' '5' && b.isDigit then some (10 * a.digit + b.digit) else none
  | _ => none

/-- The value of parts in base sixty. -/
def sixtieths? (first : Nat) (parts : List Text) : Option Nat :=
  parts.foldl (fun n part => do return 60 * (← n) + (← sixtieth? part)) (some first)

/-- The number that an integer without its sign stands for. -/
def magnitude? (t : Text) : Option Nat :=
  match t with
  | [] => none
  | c :: rest =>
    if c = '0' then
      match rest with
      | [] => some 0
      | d :: digits =>
        if d = 'b' then digits? 2 digits
        else if d = 'x' then digits? 16 digits
        else digits? 8 (c :: d :: digits)
    else if c.isDigit then
      match t.splitOn ':' with
      | [] => none
      | first :: parts => do sixtieths? (← digits? 10 first) parts
    else none

/-- The integer that a scalar stands for. -/
def int? (t : Text) : Option Int :=
  let (negative, t) := splitSign t
  (magnitude? t).map fun n => if negative then -(n : Int) else n

/-! ## 2. Floating point numbers -/

/-- The exponent of a scalar: `e` or `E`, a sign and digits, or nothing. -/
def exponent? : Text → Option Int
  | [] => some 0
  | e :: s :: digits =>
    if (e = 'e' ∨ e = 'E') ∧ (s = '+' ∨ s = '-') ∧ digits.all CodePoint.isDigit then
      (digits? 10 digits).map fun n => if s = ('-' : CodePoint) then -(n : Int) else n
    else none
  | _ => none

/-- A digit, or an underscore among digits. -/
def isDigitOrGap (c : CodePoint) : Bool := c.isDigit || c = '_'

/-- The finite number that a scalar with a point stands for. -/
def decimal? (t : Text) : Option Binary64 := do
  let (negative, body) := splitSign t
  let whole := body.takeWhile fun c => isDigitOrGap c || c = (':' : CodePoint)
  match body.dropWhile fun c => isDigitOrGap c || c = (':' : CodePoint) with
  | [] => none
  | point :: after =>
    if point ≠ '.' then none
    else
      let fraction := (after.takeWhile isDigitOrGap).filter CodePoint.isDigit
      let exponent ← exponent? (after.dropWhile isDigitOrGap)
      let value ←
        if whole.isEmpty then
          if t.head? = some ('.' : CodePoint) ∧ after.head?.any CodePoint.isDigit then some 0
          else none
        else if !whole.head?.any CodePoint.isDigit then none
        else
          match Text.splitOn whole ':' with
          | [] => none
          | first :: parts => do
            if !parts.isEmpty && exponent ≠ 0 then none
            sixtieths? (← digits? 10 first) parts
      let digits := value * Nat.pow 10 fraction.length + digitsValue fraction
      some (.ofDecimal negative digits (exponent - (fraction.length : Int)))

/-- The floating point number that a scalar stands for. -/
def float? (t : Text) : Option Binary64 :=
  let (negative, body) := splitSign t
  if isOneOf [".inf", ".Inf", ".INF"] body then some (.infinite negative)
  else if isOneOf [".nan", ".NaN", ".NAN"] t then some .nan
  else decimal? t

/-! ## 3. Scalars -/

/-- The value of a plain scalar. An equals sign alone has none. -/
def plainValue? (t : Text) : Option Value :=
  if isOneOf ["", "~", "null", "Null", "NULL"] t then some .null
  else if isOneOf ["yes", "Yes", "YES", "true", "True", "TRUE", "on", "On", "ON"] t then
    some (.bool true)
  else if isOneOf ["no", "No", "NO", "false", "False", "FALSE", "off", "Off", "OFF"] t then
    some (.bool false)
  else if isOneOf ["="] t then none
  else
    match int? t with
    | some n => some (.int n)
    | none =>
      match float? t with
      | some x => some (.float x)
      | none => some (.text t)

end GraphFeed.Yaml
