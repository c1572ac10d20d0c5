import GraphFeed.Number.Shortest
import GraphFeed.Text.Blank
import GraphFeed.Text.Digit

/-!
# Numbers and their texts

A number is an integer of any size or a floating point number. Three ways of reading one are fixed
here:

* `Number.operand?` reads an arithmetic operand: the decimal pattern, with digits of any script. An
  operand without point and exponent is an integer, unless it has more digits than
  `maxIntegerDigits`; every other operand is a floating point number;
* `readInteger?` and `readFloat?` read the value of an option: white space around it and single
  underscores between digits are allowed.
-/

namespace GraphFeed

/-- An integer or a floating point number. -/
inductive Number
  | int (n : Int)
  | float (x : Binary64)
deriving DecidableEq, Repr

/-- The text of a number. -/
def Number.text : Number → Text
  | .int n => Text.ofInt n
  | .float x => x.text

/-- Integers are read from at most this many digits, zeros in front included. -/
def maxIntegerDigits : Nat := 4300

/-! ## 1. Digit strings -/

/-- The number written by decimal digits of any script. -/
def digitsValue (digits : Text) : Nat :=
  digits.foldl (fun n c => 10 * n + c.decimal?.getD 0) 0

/-- Sign, digits before and after the point, and exponent of a decimal. -/
structure DecimalParts where
  negative : Bool
  whole : Text
  /-- The digits after the point, if there is a point. -/
  fraction : Option Text
  exponent : Option Int

/-- Splits a sign off. -/
def splitSign : Text → Bool × Text
  | [] => (false, [])
  | c :: t => if c = '-' then (true, t) else if c = '+' then (false, t) else (false, c :: t)

/-- The exponent part: nothing, or `e` or `E`, a sign or none, and digits. -/
def readExponent? : Text → Option (Option Int)
  | [] => some none
  | c :: t =>
    if c = 'e' ∨ c = 'E' then
      let (negative, digits) := splitSign t
      if digits.isEmpty || !digits.all CodePoint.isDecimal then none
      else
        let n : Int := digitsValue digits
        some (some (if negative then -n else n))
    else none

/-- Takes a text apart that has the form of a decimal: a sign or none; digits, which a point and
    more digits may follow, or a point and digits; an exponent or none. -/
def DecimalParts.read? (t : Text) : Option DecimalParts :=
  let (negative, t) := splitSign t
  let whole := t.takeWhile CodePoint.isDecimal
  let rest := t.dropWhile CodePoint.isDecimal
  match rest with
  | [] => if whole.isEmpty then none else some ⟨negative, whole, none, none⟩
  | c :: after =>
    if c = '.' then
      let fraction := after.takeWhile CodePoint.isDecimal
      if whole.isEmpty && fraction.isEmpty then none
      else
        (readExponent? (after.dropWhile CodePoint.isDecimal)).map fun exponent =>
          ⟨negative, whole, some fraction, exponent⟩
    else if whole.isEmpty then none
    else (readExponent? rest).map fun exponent => ⟨negative, whole, none, exponent⟩

/-- The floating point number nearest to a decimal. -/
def DecimalParts.toBinary64 (p : DecimalParts) : Binary64 :=
  let fraction := p.fraction.getD []
  .ofDecimal p.negative (digitsValue (p.whole ++ fraction))
    (p.exponent.getD 0 - (fraction.length : Int))

/-- The decimal has neither point nor exponent. -/
def DecimalParts.isWhole (p : DecimalParts) : Bool := p.fraction.isNone && p.exponent.isNone

/-- The value of a decimal without point and exponent. -/
def DecimalParts.toInt (p : DecimalParts) : Int :=
  if p.negative then -(digitsValue p.whole : Int) else digitsValue p.whole

/-! ## 2. Arithmetic operands -/

/-- The number an arithmetic operand stands for; `none` if it has not the form of a decimal. -/
def Number.operand? (t : Text) : Option Number :=
  (DecimalParts.read? t).map fun p =>
    if p.isWhole && p.whole.length ≤ maxIntegerDigits then .int p.toInt else .float p.toBinary64

/-! ## 3. Option values -/

/-- Removes single underscores that stand between two digits; `none` if one stands elsewhere.
    `afterDigit` tells that the code point before was a digit. -/
def dropUnderscores? (afterDigit : Bool) : Text → Option Text
  | [] => some []
  | c :: t =>
    if c = '_' then
      if afterDigit && t.head?.any CodePoint.isDecimal then dropUnderscores? false t else none
    else (dropUnderscores? c.isDecimal t).map (c :: ·)

/-- The integer an option value stands for. -/
def readInteger? (t : Text) : Option Int := do
  let t ← dropUnderscores? false t.strip
  let (negative, digits) := splitSign t
  if digits.isEmpty || !digits.all CodePoint.isDecimal || maxIntegerDigits < digits.length then none
  else
    let n : Int := digitsValue digits
    some (if negative then -n else n)

/-- ASCII letters in lower case. -/
def lowerAscii (t : Text) : Text :=
  t.map fun c => if c.between 'A' 'Z' then CodePoint.ofNat (c.val + 32) else c

/-- The floating point number an option value stands for: a decimal, `inf`, `infinity` or `nan`,
    with a sign or none. -/
def readFloat? (t : Text) : Option Binary64 := do
  let t ← dropUnderscores? false t.strip
  let (negative, word) := splitSign t
  let word := lowerAscii word
  if word = Text.ofString "inf" ∨ word = Text.ofString "infinity" then some (.infinite negative)
  else if word = Text.ofString "nan" then some .nan
  else (DecimalParts.read? t).map DecimalParts.toBinary64

end GraphFeed
