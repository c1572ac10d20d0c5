/-!
# Binary floating point numbers of 64 bits

A `Binary64` is not a number, an infinity, or `± mantissa · 2 ^ exponent`. All work is done on whole
numbers: `nearest` rounds a quotient of two of them to the nearest `Binary64` (a tie goes to the
even mantissa), and `compareInt?` compares exactly.
-/

namespace GraphFeed

/-- A 64 bit binary floating point number. Finite numbers are kept in one form: the mantissa is
    below 2^53, and at least 2^52 unless the exponent is -1074; zero has the exponent 0. -/
inductive Binary64
  | nan
  | infinite (negative : Bool)
  | finite (negative : Bool) (mantissa : Nat) (exponent : Int)
deriving DecidableEq, Repr

namespace Binary64

/-! ## 1. Rounding -/

/-- The whole number nearest to `num / den`; a tie goes to the even one. -/
def roundToEven (num den : Nat) : Nat :=
  let q := num / den
  let r := num % den
  if 2 * r < den then q
  else if den < 2 * r then q + 1
  else if q % 2 = 0 then q else q + 1

/-- `num / den / 2 ^ exponent` as a quotient of whole numbers. -/
def scaled (num den : Nat) (exponent : Int) : Nat × Nat :=
  if 0 ≤ exponent then (num, den * Nat.pow 2 exponent.toNat) else (num * Nat.pow 2 (-exponent).toNat, den)

/-- The greatest exponent `k` with `2 ^ k ≤ num / den`, for positive `num` and `den`. -/
def binaryOrder (num den : Nat) : Int :=
  let k : Int := (num.log2 : Int) - den.log2
  let (n, d) := scaled num den k
  if d ≤ n then k else k - 1

/-- The `Binary64` nearest to `± num / den`. -/
def nearest (negative : Bool) (num den : Nat) : Binary64 :=
  if num = 0 then .finite negative 0 0
  else
    let exponent := max (binaryOrder num den - 52) (-1074)
    let (n, d) := scaled num den exponent
    let m := roundToEven n d
    let (m, exponent) := if m = Nat.pow 2 53 then (Nat.pow 2 52, exponent + 1) else (m, exponent)
    if 971 < exponent then .infinite negative
    else if m = 0 then .finite negative 0 0
    else .finite negative m exponent

/-- The `Binary64` nearest to `± digits · 10 ^ exponent`. Numbers far outside the range are
    recognised by their order of magnitude, so that no huge power is computed. -/
def ofDecimal (negative : Bool) (digits : Nat) (exponent : Int) : Binary64 :=
  let length : Int := (Nat.toDigits 10 digits).length
  if digits = 0 then .finite negative 0 0
  else if 400 < length + exponent then .infinite negative
  else if length + exponent < -400 then .finite negative 0 0
  else if 0 ≤ exponent then nearest negative (digits * Nat.pow 10 exponent.toNat) 1
  else nearest negative digits (Nat.pow 10 (-exponent).toNat)

/-- The `Binary64` nearest to a whole number. -/
def ofInt (n : Int) : Binary64 := nearest (n < 0) n.natAbs 1

/-! ## 2. Values -/

/-- The magnitude `mantissa · 2 ^ exponent` as a quotient of whole numbers. -/
def magnitude (mantissa : Nat) (exponent : Int) : Nat × Nat :=
  if 0 ≤ exponent then (mantissa * Nat.pow 2 exponent.toNat, 1) else (mantissa, Nat.pow 2 (-exponent).toNat)

/-- Comparison with a whole number; what is not a number has no order. -/
def compareInt? (x : Binary64) (n : Int) : Option Ordering :=
  match x with
  | .nan => none
  | .infinite true => some .lt
  | .infinite false => some .gt
  | .finite negative m e =>
    let (num, den) := magnitude m e
    let left : Int := if negative then -(num : Int) else num
    some (compare left (n * den))

/-- What is greater than one is greater than zero. -/
theorem compareInt?_zero_of_one {x : Binary64} (h : x.compareInt? 1 = some .gt) :
    x.compareInt? 0 = some .gt := by
  unfold compareInt? at h ⊢
  cases x with
  | nan => cases h
  | infinite negative => cases negative <;> first | rfl | cases h
  | finite negative m e =>
    dsimp only at h ⊢
    rw [Option.some.injEq, Int.compare_eq_gt] at h ⊢
    have hden : 0 ≤ ((magnitude m e).2 : Int) := Int.natCast_nonneg _
    omega

/-- Equal to zero, of either sign. -/
def isZero : Binary64 → Bool
  | .finite _ 0 _ => true
  | _ => false

/-- Two times the number. -/
def double : Binary64 → Binary64
  | .finite negative m e =>
    let (num, den) := magnitude m e
    nearest negative (2 * num) den
  | x => x

end Binary64

end GraphFeed
