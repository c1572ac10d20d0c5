import GraphFeed.Number.Binary64
import GraphFeed.Text.Basic

/-!
# The shortest decimal text of a floating point number

A finite number is written with the fewest significant digits that read back to it; of the decimals
with that many digits the nearest one is taken, and of two equally near ones that with the even
last digit. `Binary64.shortest` finds digits and exponent, `Binary64.text` lays them out.
-/

namespace GraphFeed

/-- How a floating point number is laid out: positional from `10 ^ low` to below `10 ^ high`, and
    with an exponent outside. -/
structure FloatLayout where
  low : Int
  high : Int
  exponentDigits : Nat

/-- Numbers from 0.0001 to below 10^16 are positional; an exponent has a sign and at least two
    digits. -/
def FloatLayout.standard : FloatLayout := ⟨-4, 16, 2⟩

namespace Binary64

/-! ## 1. Digits -/

/-- A decimal `digits · 10 ^ exponent`. -/
structure Decimal where
  digits : Nat
  exponent : Int
deriving DecidableEq, Repr

/-- The `Binary64` a positive decimal reads back to. -/
def Decimal.read (d : Decimal) : Binary64 := ofDecimal false d.digits d.exponent

/-- The number of decimal digits. -/
def digitCount (n : Nat) : Nat := (Nat.toDigits 10 n).length

/-- `num / den / 10 ^ exponent` as a quotient of whole numbers. -/
def decimallyScaled (num den : Nat) (exponent : Int) : Nat × Nat :=
  if 0 ≤ exponent then (num, den * Nat.pow 10 exponent.toNat) else (num * Nat.pow 10 (-exponent).toNat, den)

/-- The number of digits in front of the decimal point of `num / den`: the least `k` with
    `num / den < 10 ^ k`. -/
def decimalOrder (num den : Nat) : Int :=
  let k : Int := (digitCount num : Int) - digitCount den
  let (n, d) := decimallyScaled num den k
  if d ≤ n then k + 1 else k

/-- The best decimal of `count` digits that reads back to `x`, the value of which is `num / den`:
    one of the two neighbours of the value on the grid of such decimals. -/
def readsBack? (x : Binary64) (num den : Nat) (count : Nat) : Option Decimal :=
  let exponent := decimalOrder num den - count
  let (n, d) := decimallyScaled num den exponent
  let below : Decimal := ⟨n / d, exponent⟩
  let above : Decimal := ⟨n / d + 1, exponent⟩
  let rest := n % d
  match decide (below.read = x), decide (above.read = x) with
  | false, false => none
  | true, false => some below
  | false, true => some above
  | true, true =>
    if 2 * rest < d then some below
    else if d < 2 * rest then some above
    else if below.digits % 2 = 0 then some below else some above

/-- The shortest decimal that reads back to the positive number `mantissa · 2 ^ exponent`;
    seventeen digits always do. -/
def shortest (mantissa : Nat) (exponent : Int) : Decimal :=
  let (num, den) := magnitude mantissa exponent
  let x := Binary64.finite false mantissa exponent
  ((List.range 17).findSome? fun i => readsBack? x num den (i + 1)).getD ⟨0, 0⟩

/-! ## 2. Layout -/

/-- The decimal `0.digits · 10 ^ order` under a layout. -/
def layOut (layout : FloatLayout) (digits : Text) (order : Int) : Text :=
  let exponent := order - 1
  if layout.low ≤ exponent ∧ exponent < layout.high then
    if order ≤ 0 then
      "0." ++ List.replicate (-order).toNat ('0' : CodePoint) ++ digits
    else if digits.length ≤ order.toNat then
      digits ++ List.replicate (order.toNat - digits.length) ('0' : CodePoint) ++ ".0"
    else
      digits.take order.toNat ++ "." ++ digits.drop order.toNat
  else
    let power := Text.ofNat exponent.natAbs
    let zeros := List.replicate (layout.exponentDigits - power.length) ('0' : CodePoint)
    let sign : Text := if exponent < 0 then "-" else "+"
    let point : Text := if digits.length ≤ 1 then "" else "."
    digits.take 1 ++ point ++ digits.drop 1 ++ "e" ++ sign ++ zeros ++ power

/-- The digits of a decimal without the zeros at its end. -/
def significant (n : Nat) : Text :=
  ((Text.ofNat n).reverse.dropWhile fun c => c = ('0' : CodePoint)).reverse

/-- The text of a floating point number. -/
def text : Binary64 → Text
  | .nan => "nan"
  | .infinite negative => if negative then "-inf" else "inf"
  | .finite negative m e =>
    let sign : Text := if negative then "-" else ""
    if m = 0 then sign ++ "0.0"
    else
      let d := shortest m e
      sign ++ layOut .standard (significant d.digits) (d.exponent + digitCount d.digits)

end Binary64

end GraphFeed
