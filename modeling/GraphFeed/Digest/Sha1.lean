import GraphFeed.Text.Utf8

/-!
# SHA-1

The digest is computed over 32 bit words: the message is padded to whole blocks of sixteen words
(`Sha1.pad`), each block is expanded to eighty words (`Sha1.schedule`), and eighty rounds mix it
into the state. `Sha1.hex` writes the digest with forty hexadecimal digits.
-/

namespace GraphFeed.Sha1

/-! ## 1. Blocks -/

/-- The message, a byte 0x80, zeros up to eight bytes before the end of a block, and the length of
    the message in bits. -/
def pad (message : Bytes) : Bytes :=
  let length := message.length
  let zeros := (119 - length % 64) % 64
  let bits := 8 * length
  message ++ [0x80] ++ List.replicate zeros 0
    ++ ((List.range 8).map fun i => (bits / Nat.pow 2 (8 * (7 - i)) % 256).toUInt8)

/-- Four bytes each make a word, the first byte being the highest. -/
def words : Bytes → List UInt32
  | a :: b :: c :: d :: rest =>
    (a.toUInt32 <<< 24 ||| b.toUInt32 <<< 16 ||| c.toUInt32 <<< 8 ||| d.toUInt32) :: words rest
  | _ => []

/-- The word rotated to the left. -/
def rotate (x : UInt32) (n : UInt32) : UInt32 := (x <<< n) ||| (x >>> (32 - n))

/-- Adds `count` words to a schedule that is held with its last word first. -/
def extend : Nat → List UInt32 → List UInt32
  | 0, w => w
  | count + 1, w =>
    let word := rotate (w.getD 2 0 ^^^ w.getD 7 0 ^^^ w.getD 13 0 ^^^ w.getD 15 0) 1
    extend count (word :: w)

/-- The eighty words of a block of sixteen. -/
def schedule (block : List UInt32) : List UInt32 := (extend 64 block.reverse).reverse

/-! ## 2. Rounds -/

/-- The five words of the state. -/
structure State where
  a : UInt32
  b : UInt32
  c : UInt32
  d : UInt32
  e : UInt32

/-- The state before the first block. -/
def State.initial : State := ⟨0x67452301, 0xEFCDAB89, 0x98BADCFE, 0x10325476, 0xC3D2E1F0⟩

/-- The function and the constant of a round. -/
def roundWord (i : Nat) (s : State) : UInt32 × UInt32 :=
  if i < 20 then ((s.b &&& s.c) ||| (~~~s.b &&& s.d), 0x5A827999)
  else if i < 40 then (s.b ^^^ s.c ^^^ s.d, 0x6ED9EBA1)
  else if i < 60 then ((s.b &&& s.c) ||| (s.b &&& s.d) ||| (s.c &&& s.d), 0x8F1BBCDC)
  else (s.b ^^^ s.c ^^^ s.d, 0xCA62C1D6)

/-- One round with the word `w`. -/
def round (s : State) (i : Nat) (w : UInt32) : State :=
  let (f, k) := roundWord i s
  ⟨rotate s.a 5 + f + s.e + k + w, s.a, rotate s.b 30, s.c, s.d⟩

/-- All rounds with the words of a schedule, from round `i` on. -/
def rounds (s : State) (i : Nat) : List UInt32 → State
  | [] => s
  | w :: rest => rounds (round s i w) (i + 1) rest

/-- The state after a block. -/
def compress (s : State) (block : List UInt32) : State :=
  let r := rounds s 0 (schedule block)
  ⟨s.a + r.a, s.b + r.b, s.c + r.c, s.d + r.d, s.e + r.e⟩

/-- The state after as many whole blocks as `count` says. -/
def absorb : Nat → State → List UInt32 → State
  | 0, s, _ => s
  | count + 1, s, words => absorb count (compress s (words.take 16)) (words.drop 16)

/-- The digest of a message with forty hexadecimal digits. -/
def hex (message : Bytes) : Text :=
  let ws := words (pad message)
  let s := absorb (ws.length / 16) .initial ws
  [s.a, s.b, s.c, s.d, s.e].flatMap fun w => Text.hex 8 w.toNat

end GraphFeed.Sha1
