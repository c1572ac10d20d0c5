import GraphFeed.Text.Basic

/-!
# White space

`CodePoint.isBlank` is the Unicode white space property with the four information separators
U+001C to U+001F added. `Text.strip` removes it at both ends; the zero width space U+200B and the
byte order mark U+FEFF are no white space and stay.
-/

namespace GraphFeed

/-! ## 1. The property -/

/-- The blocks of white space, first and last code point of each. -/
def blankRanges : List (Nat × Nat) :=
  [(0x9, 0xD), (0x1C, 0x20), (0x85, 0x85), (0xA0, 0xA0), (0x1680, 0x1680), (0x2000, 0x200A),
   (0x2028, 0x2029), (0x202F, 0x202F), (0x205F, 0x205F), (0x3000, 0x3000)]

/-- White space of any script. -/
def CodePoint.isBlank (c : CodePoint) : Bool :=
  blankRanges.any fun r => r.1 ≤ c.val && c.val ≤ r.2

/-! ## 2. Stripping -/

namespace Text

/-- The text without the white space it begins with. -/
def stripLeft (t : Text) : Text := t.dropWhile CodePoint.isBlank

/-- The text without the white space it ends with. -/
def stripRight (t : Text) : Text := (t.reverse.dropWhile CodePoint.isBlank).reverse

/-- The text without the white space at either end. -/
def strip (t : Text) : Text := stripRight (stripLeft t)

@[simp] theorem strip_nil : strip [] = [] := rfl

theorem length_stripLeft_le (t : Text) : (stripLeft t).length ≤ t.length :=
  (List.dropWhile_sublist _).length_le

theorem length_stripRight_le (t : Text) : (stripRight t).length ≤ t.length := by
  have h := (List.dropWhile_sublist (p := CodePoint.isBlank) (l := t.reverse)).length_le
  simpa [stripRight] using h

/-- Stripping never makes a text longer. -/
theorem length_strip_le (t : Text) : (strip t).length ≤ t.length :=
  Nat.le_trans (length_stripRight_le _) (length_stripLeft_le _)

/-- A text without white space is its own stripped text. -/
theorem strip_of_noBlank {t : Text} (h : ∀ c ∈ t, c.isBlank = false) : strip t = t := by
  have keep : ∀ {u : Text}, (∀ c ∈ u, c.isBlank = false) → u.dropWhile CodePoint.isBlank = u := by
    intro u hu
    cases u with
    | nil => rfl
    | cons c u => exact List.dropWhile_cons_of_neg (by simp [hu c List.mem_cons_self])
  rw [strip, stripLeft, stripRight, keep h, keep fun c hc => h c (List.mem_reverse.mp hc),
    List.reverse_reverse]

/-- Stripping takes away nothing but white space. -/
theorem count_strip {c : CodePoint} (h : c.isBlank = false) (t : Text) :
    (strip t).count c = t.count c := by
  have drop : ∀ u : Text, (u.dropWhile CodePoint.isBlank).count c = u.count c := by
    intro u
    have hblank : (u.takeWhile CodePoint.isBlank).count c = 0 := by
      refine List.count_eq_zero.mpr fun hc => ?_
      have hall := List.all_eq_true.mp List.all_takeWhile c hc
      rw [h] at hall
      exact Bool.false_ne_true hall
    have hsplit := congrArg (List.count c) (List.takeWhile_append_dropWhile (p := CodePoint.isBlank) (l := u))
    rw [List.count_append, hblank, Nat.zero_add] at hsplit
    exact hsplit
  rw [strip, stripRight, stripLeft, List.count_reverse, drop, List.count_reverse, drop]

end Text

end GraphFeed
