/-!
# Text as a list of code points

Everything the program reads and writes is a `Text`: a list of Unicode code points. The surrogates
U+D800 to U+DFFF are code points too, because a `\u` escape of an instruction may name one alone;
this is why the elements are `CodePoint` and not `Char`, which excludes them.

Lengths and positions count code points, so `List.length`, `List.take` and `List.drop` are the
measures of the whole library.
-/

namespace GraphFeed

/-! ## 1. Code points -/

/-- A Unicode code point, the surrogates included. -/
structure CodePoint where
  val : Nat
  val_lt : val < 0x110000
deriving DecidableEq

namespace CodePoint

@[ext] theorem ext {a b : CodePoint} (h : a.val = b.val) : a = b := by
  cases a; cases b; cases h; rfl

/-- Every character is a code point. -/
def ofChar (c : Char) : CodePoint :=
  ⟨c.toNat, by
    have h := c.valid
    simp only [UInt32.isValidChar, Nat.isValidChar] at h
    simp only [Char.toNat]
    omega⟩

instance : Coe Char CodePoint := ⟨ofChar⟩

@[simp] theorem ofChar_inj {a b : Char} : ofChar a = ofChar b ↔ a = b := by
  constructor
  · intro h
    have hv : a.toNat = b.toNat := congrArg CodePoint.val h
    exact Char.toNat_inj.mp hv
  · rintro rfl; rfl

/-- The code point with the given number; numbers past the last one give U+FFFD. -/
def ofNat (n : Nat) : CodePoint :=
  if h : n < 0x110000 then ⟨n, h⟩ else ⟨0xFFFD, by decide⟩

/-- One half of a surrogate pair. -/
def isSurrogate (c : CodePoint) : Bool := 0xD800 ≤ c.val && c.val ≤ 0xDFFF

/-- The character with the same number; a surrogate, which has none, gives U+FFFD. -/
def toChar (c : CodePoint) : Char := if c.isSurrogate then '\uFFFD' else Char.ofNat c.val

/-- `c` lies between the two characters, ends included. -/
def between (lo hi : Char) (c : CodePoint) : Bool := lo.toNat ≤ c.val && c.val ≤ hi.toNat

/-- One of the ten digits `0` to `9`. -/
def isDigit (c : CodePoint) : Bool := c.between '0' '9'

/-- The value of a digit `0` to `9`. -/
def digit (c : CodePoint) : Nat := c.val - 48

/-- The value of a hexadecimal digit in either case. -/
def hex? (c : CodePoint) : Option Nat :=
  if c.isDigit then some (c.val - 48)
  else if c.between 'a' 'f' then some (c.val - 87)
  else if c.between 'A' 'F' then some (c.val - 55)
  else none

end CodePoint

/-! ## 2. Texts -/

/-- A text is the list of its code points. -/
abbrev Text := List CodePoint

namespace Text

/-- The code points of a string. -/
def ofString (s : String) : Text := s.toList.map CodePoint.ofChar

instance : Coe String Text := ⟨ofString⟩

/-- The string with the same characters; a lone surrogate shows as U+FFFD. -/
def toString (t : Text) : String := String.ofList (t.map CodePoint.toChar)

/-- The parts one after the other. Messages are written with it. -/
def concat (parts : List Text) : Text := parts.flatten

/-- The parts with `separator` between each two of them. -/
def join (separator : Text) : List Text → Text
  | [] => []
  | [part] => part
  | part :: rest => part ++ separator ++ join separator rest

@[simp] theorem join_nil (separator : Text) : join separator [] = [] := rfl

@[simp] theorem join_singleton (separator part : Text) : join separator [part] = part := rfl

@[simp] theorem join_cons_cons (separator a b : Text) (rest : List Text) :
    join separator (a :: b :: rest) = a ++ separator ++ join separator (b :: rest) := rfl

/-- Every occurrence of one code point replaced by a text. -/
def replace (t : Text) (old : CodePoint) (new : Text) : Text :=
  t.flatMap fun c => if c = old then new else [c]

/-- The parts between the occurrences of `mark`; a text without it is its only part. -/
def splitOn (t : Text) (mark : CodePoint) : List Text :=
  match t with
  | [] => [[]]
  | c :: t =>
    match splitOn t mark with
    | [] => [[]]
    | part :: rest => if c = mark then [] :: part :: rest else (c :: part) :: rest

/-- The text begins with `start`. -/
def startsWith (t start : Text) : Bool := start.isPrefixOf t

/-- `inner` occurs somewhere in the text. -/
def contains (t inner : Text) : Bool :=
  match t with
  | [] => inner.isEmpty
  | c :: t => inner.isPrefixOf (c :: t) || contains t inner

/-- Texts are ordered by their code points, an initial part first. -/
def le : Text → Text → Bool
  | [], _ => true
  | _ :: _, [] => false
  | a :: s, b :: t => if a.val < b.val then true else if b.val < a.val then false else le s t

/-! ## 3. Whole numbers -/

/-- The decimal digits of a number. -/
def ofNat (n : Nat) : Text := (Nat.toDigits 10 n).map CodePoint.ofChar

/-- The decimal digits of an integer, with a minus sign when it is negative. -/
def ofInt (n : Int) : Text :=
  if n < 0 then (('-' : CodePoint) :: ofNat n.natAbs) else ofNat n.natAbs

/-- The hexadecimal digits of a number in lower case, with zeros in front up to `width`. -/
def hex (width n : Nat) : Text :=
  let digits : Text := (Nat.toDigits 16 n).map CodePoint.ofChar
  List.replicate (width - digits.length) ('0' : CodePoint) ++ digits

end Text

end GraphFeed
