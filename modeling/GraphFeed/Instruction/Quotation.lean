import GraphFeed.Text.Basic

/-!
# Quoted texts of an instruction

A text of an instruction may stand between quote marks, double or single ones. In it a backslash
begins an escape: a `u` and four hexadecimal digits give a code point, nine letters and signs have
a meaning of their own (`Quotation.short?`), and before anything else the backslash is a backslash.
A line end is never escaped.

`Quotation.decode` reads the escapes; `unquote` does so after taking the marks away.
-/

namespace GraphFeed

namespace Quotation

/-- The code points that a short escape stands for, by what follows the backslash. -/
def short? (c : CodePoint) : Option CodePoint :=
  if c = '"' then some '"'
  else if c = '\'' then some '\''
  else if c = '\\' then some '\\'
  else if c = '/' then some '/'
  else if c = 'b' then some '\x08'
  else if c = 'f' then some '\x0c'
  else if c = 'n' then some '\n'
  else if c = 'r' then some '\r'
  else if c = 't' then some '\t'
  else none

/-- The number that the four hexadecimal digits at the beginning of a text stand for. -/
def fourHex? (t : Text) : Option Nat :=
  match t with
  | a :: b :: c :: d :: _ =>
    match a.hex?, b.hex?, c.hex?, d.hex? with
    | some a, some b, some c, some d => some (((a * 16 + b) * 16 + c) * 16 + d)
    | _, _, _, _ => none
  | _ => none

/-- Reads the escapes of a text. -/
def decode (t : Text) : Text :=
  match t with
  | [] => []
  | [c] => [c]
  | c :: d :: rest =>
    if c ≠ '\\' ∨ d = '\n' then c :: decode (d :: rest)
    else if d = 'u' then
      match fourHex? rest with
      | some n => CodePoint.ofNat n :: decode (rest.drop 4)
      | none => c :: d :: decode rest
    else
      match short? d with
      | some e => e :: decode rest
      | none => c :: d :: decode rest
termination_by t.length
decreasing_by all_goals (simp only [List.length_cons, List.length_drop]; omega)

@[simp] theorem decode_nil : decode [] = [] := by simp [decode]

end Quotation

/-- Takes away the first and the last code point and reads the escapes between them. -/
def unquote (token : Text) : Text := Quotation.decode (token.drop 1).dropLast

theorem unquote_marked (opening closing : CodePoint) (inside : Text) :
    unquote (opening :: (inside ++ [closing])) = Quotation.decode inside := by
  rw [unquote, List.drop_one, List.tail_cons, List.dropLast_concat]

end GraphFeed
