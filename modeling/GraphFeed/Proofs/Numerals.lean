import GraphFeed.Template.Field

/-!
# Numbers in digits

What the digits of a number look like (`isDigit_ofNat`), and that they can be read back
(`numberValue_ofNat`), so that no two numbers have the same digits (`ofNat_inj`).
-/

namespace GraphFeed

theorem isDigit_ofNat {n : Nat} {c : CodePoint} (h : c ∈ Text.ofNat n) : c.isDigit = true := by
  obtain ⟨d, hd, rfl⟩ := List.mem_map.mp h
  have hdigit := Nat.isDigit_of_mem_toDigits (by decide) (by decide) hd
  simp only [Char.isDigit, Bool.and_eq_true, decide_eq_true_eq, UInt32.le_iff_toNat_le] at hdigit
  simp only [CodePoint.isDigit, CodePoint.between, CodePoint.ofChar, Bool.and_eq_true]
  exact ⟨decide_eq_true hdigit.1, decide_eq_true hdigit.2⟩

theorem isDigit_bounds {c : CodePoint} (h : c.isDigit = true) : 48 ≤ c.val ∧ c.val ≤ 57 := by
  simp only [CodePoint.isDigit, CodePoint.between, Bool.and_eq_true] at h
  exact ⟨of_decide_eq_true h.1, of_decide_eq_true h.2⟩

theorem isBlank_of_isDigit {c : CodePoint} (h : c.isDigit = true) : c.isBlank = false := by
  obtain ⟨hlo, hhi⟩ := isDigit_bounds h
  simp only [CodePoint.isBlank, blankRanges, List.any_cons, List.any_nil, Bool.or_false,
    Bool.or_eq_false_iff, Bool.and_eq_false_iff, decide_eq_false_iff_not]
  omega

/-- A digit is none of the code points that mean something in a template. -/
theorem ne_of_isDigit {c : CodePoint} (h : c.isDigit = true) {d : CodePoint}
    (hd : d.val < 48 ∨ 57 < d.val) : c ≠ d := by
  rintro rfl
  obtain ⟨hlo, hhi⟩ := isDigit_bounds h
  omega

theorem numberValue_ofNat (n : Nat) : Placeholder.numberValue (Text.ofNat n) = n := by
  have h : ∀ (l : List Char) (k : Nat),
      (l.map CodePoint.ofChar).foldl (fun n c => 10 * n + c.digit) k = Nat.ofDigitChars 10 l k := by
    intro l
    induction l with
    | nil => intro k; rfl
    | cons c l ih =>
      intro k
      rw [List.map_cons, List.foldl_cons, ih, Nat.ofDigitChars_cons]
      rfl
  rw [Placeholder.numberValue, Text.ofNat, h, Nat.ofDigitChars_ten_toDigits]

theorem ofNat_ne_nil (n : Nat) : Text.ofNat n ≠ [] := by
  rw [Text.ofNat, Ne, List.map_eq_nil_iff]
  exact Nat.toDigits_ne_nil

/-- No two numbers have the same digits. -/
theorem ofNat_inj {m n : Nat} (h : Text.ofNat m = Text.ofNat n) : m = n := by
  have hvalue := congrArg Placeholder.numberValue h
  rwa [numberValue_ofNat, numberValue_ofNat] at hvalue

end GraphFeed
