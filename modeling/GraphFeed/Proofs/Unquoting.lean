import GraphFeed.Proofs.Escapes
import Mathlib.Data.List.Forall2

/-!
# Taking quote marks away

Between quote marks every code point is written on its own (`Renders`): as it is, by a short escape, or
by its number. Which of these is chosen for one code point has no bearing on the others.

* `HexDigit.hex?`: a hexadecimal digit in either case is read as the digit that it is;
* `decode_written`: **a code point that is written is read back**, whatever stands behind it;
* `unquote_written`: so is a text, of which each code point is written in its own way.

The pieces may look across their borders: a digit behind four digits, backslashes in a row, a `u` behind
an escaped backslash. `unquote_written_neighbours` is a text with all of these.
-/

namespace GraphFeed

theorem CodePoint.ofNat_val (c : CodePoint) : CodePoint.ofNat c.val = c := by
  rw [CodePoint.ofNat, dif_pos c.val_lt]

namespace Quotation

/-! ## 1. Ways to write a code point -/

/-- The digit `d` stands for a number below sixteen, in lower or in upper case. -/
def HexDigit (n : Nat) (d : CodePoint) : Prop :=
  ("0123456789abcdef" : Text)[n]? = some d ∨ ("0123456789ABCDEF" : Text)[n]? = some d

/-- The code points that have a short escape, with what stands behind the backslash. -/
def shortEscapes : List (CodePoint × CodePoint) :=
  [('"', '"'), ('\'', '\''), ('\\', '\\'), ('/', '/'), ('\x08', 'b'), ('\x0c', 'f'), ('\n', 'n'),
    ('\r', 'r'), ('\t', 't')]

/-- **The text renders the code point `c`** between quote marks. -/
inductive Renders (c : CodePoint) : Text → Prop
  | plain (h : c ≠ '\\') : Renders c [c]
  | short {d : CodePoint} (h : (c, d) ∈ shortEscapes) : Renders c ['\\', d]
  /-- By its number, if that has four digits at most. Each digit is of either case. -/
  | number {d₃ d₂ d₁ d₀ : CodePoint} (h₃ : HexDigit (c.val / 4096) d₃)
      (h₂ : HexDigit (c.val / 256 % 16) d₂) (h₁ : HexDigit (c.val / 16 % 16) d₁)
      (h₀ : HexDigit (c.val % 16) d₀) : Renders c ['\\', 'u', d₃, d₂, d₁, d₀]

/-! ## 2. Reading them -/

theorem HexDigit.lt {n : Nat} {d : CodePoint} (h : HexDigit n d) : n < 16 := by
  rcases h with h | h
  · exact (List.getElem?_eq_some_iff.mp h).1
  · exact (List.getElem?_eq_some_iff.mp h).1

/-- **A digit of either case is read as the digit that it is.** -/
theorem HexDigit.hex? {n : Nat} {d : CodePoint} (h : HexDigit n d) : d.hex? = some n := by
  have hread : ∀ n < 16, (("0123456789abcdef" : Text)[n]?.bind CodePoint.hex? = some n) ∧
      (("0123456789ABCDEF" : Text)[n]?.bind CodePoint.hex? = some n) := by decide
  obtain ⟨hlower, hupper⟩ := hread n h.lt
  rcases h with h | h
  · rwa [h] at hlower
  · rwa [h] at hupper

theorem short?_of_mem {c d : CodePoint} (h : (c, d) ∈ shortEscapes) : short? d = some c := by
  have hread : ∀ e ∈ shortEscapes, short? e.2 = some e.1 := by decide
  exact hread (c, d) h

/-- The four digits of a number stand for it. -/
theorem fourHex?_of_digits {n : Nat} {d₃ d₂ d₁ d₀ : CodePoint} (h₃ : HexDigit (n / 4096) d₃)
    (h₂ : HexDigit (n / 256 % 16) d₂) (h₁ : HexDigit (n / 16 % 16) d₁) (h₀ : HexDigit (n % 16) d₀)
    (t : Text) : fourHex? (d₃ :: d₂ :: d₁ :: d₀ :: t) = some n := by
  have hsum : ((n / 4096 * 16 + n / 256 % 16) * 16 + n / 16 % 16) * 16 + n % 16 = n := by omega
  simp only [fourHex?, h₃.hex?, h₂.hex?, h₁.hex?, h₀.hex?, hsum]

/-- **A code point that is written is read back**, whatever stands behind it. -/
theorem decode_written {c : CodePoint} {piece : Text} (h : Renders c piece) (t : Text) :
    decode (piece ++ t) = c :: decode t := by
  cases h with
  | plain h => exact decode_plain h t
  | @short d h =>
    have hd := short?_of_mem h
    obtain ⟨hline, hnumber⟩ := ne_of_short hd
    change decode ('\\' :: d :: t) = _
    rw [decode_escape hline, if_neg hnumber, hd]
  | @number d₃ d₂ d₁ d₀ h₃ h₂ h₁ h₀ =>
    change decode ('\\' :: 'u' :: d₃ :: d₂ :: d₁ :: d₀ :: t) = _
    rw [decode_escape (by decide), if_pos rfl, fourHex?_of_digits h₃ h₂ h₁ h₀ t]
    dsimp only [List.drop]
    rw [CodePoint.ofNat_val]

/-- So is a text that is written piece by piece. -/
theorem decode_pieces {value : Text} {pieces : List Text} (h : List.Forall₂ Renders value pieces) :
    decode pieces.flatten = value := by
  induction h with
  | nil => exact decode_nil
  | cons hpiece _ ih => rw [List.flatten_cons, decode_written hpiece, ih]

end Quotation

open Quotation (Renders)

/-- **A quoted text is what is written between its marks**, in whichever way each of its code points is
    written. -/
theorem unquote_written {value : Text} {pieces : List Text} (h : List.Forall₂ Renders value pieces)
    (opening closing : CodePoint) :
    unquote (opening :: pieces.flatten ++ [closing]) = value := by
  rw [List.cons_append, unquote_marked, Quotation.decode_pieces h]

/-- An escaped backslash before a `u` and four digits, two backslashes before an `n`, a line end and a
    mark as they are, and a digit behind four digits. -/
theorem unquote_written_neighbours :
    let value : Text := ['\\', 'u', '0', '0', '4', '1', '\\', 'n', '\n', '"', '/', 'A', 'f']
    let pieces : List Text :=
      ["\\u005C", "u", "0", "0", "4", "1", "\\\\", "n", "\n", "\"", "\\/", "\\u0041", "f"]
    List.Forall₂ Renders value pieces ∧
      unquote "\"\\u005Cu0041\\\\n\n\"\\/\\u0041f\"" = value := by
  intro value pieces
  have plain : ∀ {c : CodePoint}, c ≠ '\\' → Renders c [c] := .plain
  have hwritten : List.Forall₂ Renders value pieces :=
    .cons (.number (.inl rfl) (.inl rfl) (.inl rfl) (.inr rfl)) <|
    .cons (plain (by decide)) <| .cons (plain (by decide)) <| .cons (plain (by decide)) <|
    .cons (plain (by decide)) <| .cons (plain (by decide)) <|
    .cons (.short (by decide)) <| .cons (plain (by decide)) <|
    .cons (plain (by decide)) <| .cons (plain (by decide)) <| .cons (.short (by decide)) <|
    .cons (.number (.inl rfl) (.inl rfl) (.inl rfl) (.inl rfl)) <| .cons (plain (by decide)) .nil
  exact ⟨hwritten, unquote_written hwritten '"' '"'⟩

end GraphFeed
