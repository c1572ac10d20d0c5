import GraphFeed.Text.Basic

/-!
# UTF-8

`Utf8.encode` writes a text as bytes; surrogates have no encoding. `Utf8.decode` is a machine that
reads one byte at a time: between code points it takes a first byte, which promises how many bytes
follow and in which range the second one lies (`Utf8.lead?`). It refuses at the first byte that
cannot continue what was read, and names the bytes that form no code point.
-/

namespace GraphFeed

/-- A sequence of bytes. -/
abbrev Bytes := List UInt8

namespace Utf8

/-! ## 1. Encoding -/

/-- The bytes of a code point that is no surrogate. -/
def encodeOne (c : CodePoint) : Bytes :=
  let n := c.val
  if n < 0x80 then [n.toUInt8]
  else if n < 0x800 then [(0xC0 + n / 0x40).toUInt8, (0x80 + n % 0x40).toUInt8]
  else if n < 0x10000 then
    [(0xE0 + n / 0x1000).toUInt8, (0x80 + n / 0x40 % 0x40).toUInt8, (0x80 + n % 0x40).toUInt8]
  else
    [(0xF0 + n / 0x40000).toUInt8, (0x80 + n / 0x1000 % 0x40).toUInt8,
     (0x80 + n / 0x40 % 0x40).toUInt8, (0x80 + n % 0x40).toUInt8]

/-- A run of surrogates in a text: where it begins, and its code points. -/
structure Unencodable where
  position : Nat
  surrogates : Text
deriving DecidableEq

/-- The bytes of a text, or the first run of surrogates in it. -/
def encode (t : Text) : Except Unencodable Bytes :=
  match t.findIdx? CodePoint.isSurrogate with
  | none => .ok (t.flatMap encodeOne)
  | some i => .error ⟨i, (t.drop i).takeWhile CodePoint.isSurrogate⟩

/-! ## 2. Decoding -/

/-- Why bytes form no code point. -/
inductive Reason
  | invalidStart
  | invalidContinuation
  | unexpectedEnd
deriving DecidableEq, Repr

/-- The bytes from `first` to `last`, which form no code point; `byte` is the first of them. -/
structure Undecodable where
  first : Nat
  last : Nat
  byte : UInt8
  reason : Reason
deriving DecidableEq

/-- A code point of which some bytes have been read. -/
structure Begun where
  /-- How many bytes must still come. -/
  owed : Nat
  /-- The range of the next byte. -/
  low : Nat
  high : Nat
  /-- The bits read so far. -/
  value : Nat
  /-- The first byte and its position. -/
  lead : UInt8
  position : Nat

/-- What a first byte promises: how many bytes follow, the range of the second one, and the bits
    it contributes. -/
def lead? (b : Nat) : Option (Nat × Nat × Nat × Nat) :=
  if b < 0xC2 then none
  else if b < 0xE0 then some (1, 0x80, 0xBF, b - 0xC0)
  else if b = 0xE0 then some (2, 0xA0, 0xBF, 0)
  else if b = 0xED then some (2, 0x80, 0x9F, 0xD)
  else if b < 0xF0 then some (2, 0x80, 0xBF, b - 0xE0)
  else if b = 0xF0 then some (3, 0x90, 0xBF, 0)
  else if b < 0xF4 then some (3, 0x80, 0xBF, b - 0xF0)
  else if b = 0xF4 then some (3, 0x80, 0x8F, 4)
  else none

/-- Reads the bytes from `position` on, `begun?` being the code point begun before it. -/
def decodeFrom (position : Nat) (begun? : Option Begun) : Bytes → Except Undecodable Text
  | [] =>
    match begun? with
    | none => .ok []
    | some p => .error ⟨p.position, position - 1, p.lead, .unexpectedEnd⟩
  | b :: rest =>
    match begun? with
    | none =>
      if b.toNat < 0x80 then
        (decodeFrom (position + 1) none rest).map (CodePoint.ofNat b.toNat :: ·)
      else
        match lead? b.toNat with
        | none => .error ⟨position, position, b, .invalidStart⟩
        | some (owed, low, high, value) =>
          decodeFrom (position + 1) (some ⟨owed, low, high, value, b, position⟩) rest
    | some p =>
      if p.low ≤ b.toNat ∧ b.toNat ≤ p.high then
        let value := p.value * 0x40 + b.toNat % 0x40
        if p.owed ≤ 1 then
          (decodeFrom (position + 1) none rest).map (CodePoint.ofNat value :: ·)
        else
          decodeFrom (position + 1) (some ⟨p.owed - 1, 0x80, 0xBF, value, p.lead, p.position⟩) rest
      else .error ⟨p.position, position - 1, p.lead, .invalidContinuation⟩

/-- The text that the bytes encode. -/
def decode (bytes : Bytes) : Except Undecodable Text := decodeFrom 0 none bytes

end Utf8

end GraphFeed
