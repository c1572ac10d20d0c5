import GraphFeed.Instruction.Lexeme

/-!
# Escapes in quoted texts

`Quotation.Inside mark inside` says that `inside` may stand between two of `mark`, and
`Escaped mark value inside` that it is a way to write `value` there.

* What may stand between marks is what the mark behind it closes (`Quotation.inside_of_closing?`,
  `Quotation.Inside.closing?_append`).
* Every text can be written between marks of either kind (`exists_escaped`).
* What is written so may stand between the marks (`Escaped.isInside`) and is decoded to the text
  (`Escaped.decode_eq`).
-/

namespace GraphFeed

/-! ## 1. Escapes -/

/-- Between two of `mark`, the text `inside` stands for `value`. A backslash before a code point
    that makes no escape with it stands for itself. -/
inductive Escaped (mark : CodePoint) : Text → Text → Prop
  | nil : Escaped mark [] []
  | plain {c : CodePoint} {value inside : Text} (hmark : c ≠ mark) (hline : c ≠ '\n')
      (hslash : c ≠ '\\') (h : Escaped mark value inside) :
      Escaped mark (c :: value) (c :: inside)
  | short {c d : CodePoint} {value inside : Text} (hd : Quotation.short? d = some c)
      (h : Escaped mark value inside) :
      Escaped mark (c :: value) ('\\' :: d :: inside)
  | number {a b c d : CodePoint} {n : Nat} {value inside : Text}
      (hn : Quotation.fourHex? [a, b, c, d] = some n) (h : Escaped mark value inside) :
      Escaped mark (CodePoint.ofNat n :: value) ('\\' :: 'u' :: a :: b :: c :: d :: inside)
  | kept {d : CodePoint} {value inside : Text} (hd : Quotation.short? d = none) (hline : d ≠ '\n')
      (hnumber : d = 'u' → Quotation.fourHex? inside = none) (h : Escaped mark value inside) :
      Escaped mark ('\\' :: d :: value) ('\\' :: d :: inside)

variable {mark : CodePoint} {value inside : Text}

theorem Lexeme.eq_of_isMark (hmark : isMark mark = true) : mark = '"' ∨ mark = '\'' := by
  simpa only [isMark, Bool.or_eq_true, decide_eq_true_eq] using hmark

/-- **Every text can be written between marks.** -/
theorem exists_escaped (hmark : Lexeme.isMark mark = true) (value : Text) :
    ∃ inside, Escaped mark value inside := by
  have hshort : Quotation.short? mark = some mark := by
    rcases Lexeme.eq_of_isMark hmark with rfl | rfl
    · rfl
    · rfl
  induction value with
  | nil => exact ⟨[], .nil⟩
  | cons c value ih =>
    obtain ⟨inside, h⟩ := ih
    by_cases hc : c = mark
    · rw [hc]
      exact ⟨_, .short hshort h⟩
    · by_cases hline : c = '\n'
      · rw [hline]
        exact ⟨_, .short (d := 'n') rfl h⟩
      · by_cases hslash : c = '\\'
        · rw [hslash]
          exact ⟨_, .short (d := '\\') rfl h⟩
        · exact ⟨_, .plain hc hline hslash h⟩

/-! ## 2. The closing mark -/

/-- What may stand between two quote marks: code points other than the mark, a backslash and a line
    end, and backslashes with any code point but a line end behind each. -/
inductive Quotation.Inside (mark : CodePoint) : Text → Prop
  | nil : Inside mark []
  | plain {c : CodePoint} {t : Text} (hmark : c ≠ mark) (hslash : c ≠ '\\') (hline : c ≠ '\n')
      (h : Inside mark t) : Inside mark (c :: t)
  | escaped {c : CodePoint} {t : Text} (hline : c ≠ '\n') (h : Inside mark t) :
      Inside mark ('\\' :: c :: t)

namespace Lexeme

theorem closing?_mark (t : Text) : closing? mark (mark :: t) = some ([], t) := by
  rw [closing?.eq_def]
  exact if_pos rfl

theorem closing?_plain {c : CodePoint} (hmark : c ≠ mark) (hline : c ≠ '\n') (hslash : c ≠ '\\')
    (t : Text) : closing? mark (c :: t) = (closing? mark t).map fun x => (c :: x.1, x.2) := by
  rw [closing?.eq_def]
  simp only [hmark, hline, hslash, if_false]

theorem closing?_escape (hmark : isMark mark = true) {d : CodePoint} (hd : d ≠ '\n') (t : Text) :
    closing? mark ('\\' :: d :: t) = (closing? mark t).map fun x => (('\\' : CodePoint) :: d :: x.1, x.2) := by
  have hslash : ('\\' : CodePoint) ≠ mark := by
    rcases eq_of_isMark hmark with rfl | rfl
    · decide
    · decide
  rw [closing?, if_neg hslash, if_neg (by decide), if_pos rfl]
  exact if_neg hd

end Lexeme

namespace Quotation

theorem inside_of_closing? {t after : Text} (h : Lexeme.closing? mark t = some (inside, after)) :
    Inside mark inside := by
  fun_induction Lexeme.closing? mark t generalizing inside after with
  | case1 => cases h
  | case2 t =>
    cases h
    exact .nil
  | case3 | case4 | case5 => cases h
  | case6 d t hline _ _ ih =>
    obtain ⟨⟨inside, after⟩, hrest, heq⟩ := Option.map_eq_some_iff.mp h
    cases heq
    exact .escaped hline (ih hrest)
  | case7 c t hc hline hslash ih =>
    obtain ⟨⟨inside, after⟩, hrest, heq⟩ := Option.map_eq_some_iff.mp h
    cases heq
    exact .plain hc hslash hline (ih hrest)

/-- **The mark that closes a quoted text is the one behind it.** -/
theorem Inside.closing?_append (hmark : Lexeme.isMark mark = true) (h : Inside mark inside)
    (t : Text) : Lexeme.closing? mark (inside ++ mark :: t) = some (inside, t) := by
  induction h with
  | nil => exact Lexeme.closing?_mark t
  | plain hc hslash hline h ih =>
    rw [List.cons_append, Lexeme.closing?_plain hc hline hslash, ih]
    rfl
  | escaped hline h ih =>
    rw [List.cons_append, List.cons_append, Lexeme.closing?_escape hmark hline, ih]
    rfl

/-- A hexadecimal digit may stand between marks. -/
theorem Inside.hex (hmark : Lexeme.isMark mark = true) {c : CodePoint} {x : Nat}
    (hx : c.hex? = some x) (h : Inside mark inside) : Inside mark (c :: inside) := by
  have hnone : mark.hex? = none := by
    rcases Lexeme.eq_of_isMark hmark with rfl | rfl
    · rfl
    · rfl
  refine .plain ?_ ?_ ?_ h
  · rintro rfl
    rw [hnone] at hx
    cases hx
  · rintro rfl
    cases hx
  · rintro rfl
    cases hx

theorem exists_hex {a b c d : CodePoint} {n : Nat} (h : fourHex? [a, b, c, d] = some n) :
    (∃ x, a.hex? = some x) ∧ (∃ x, b.hex? = some x) ∧ (∃ x, c.hex? = some x) ∧
      ∃ x, d.hex? = some x := by
  simp only [fourHex?] at h
  split at h
  · rename_i ha hb hc hd
    exact ⟨⟨_, ha⟩, ⟨_, hb⟩, ⟨_, hc⟩, ⟨_, hd⟩⟩
  · cases h

/-! ## 3. Writing and decoding -/

theorem decode_plain {c : CodePoint} (hslash : c ≠ '\\') (t : Text) :
    decode (c :: t) = c :: decode t := by
  cases t with
  | nil => rw [decode, decode]
  | cons d t => rw [decode, if_pos (.inl hslash)]

/-- A backslash begins an escape with everything but a line end. -/
theorem decode_escape {d : CodePoint} (hd : d ≠ '\n') (t : Text) :
    decode ('\\' :: d :: t) =
      if d = 'u' then
        match fourHex? t with
        | some n => CodePoint.ofNat n :: decode (t.drop 4)
        | none => '\\' :: d :: decode t
      else
        match short? d with
        | some e => e :: decode t
        | none => '\\' :: d :: decode t := by
  have hescapes : ¬ (('\\' : CodePoint) ≠ '\\' ∨ d = '\n') := by
    rintro (hne | hline)
    · exact hne rfl
    · exact hd hline
  rw [decode]
  exact if_neg hescapes

/-- A short escape is no line end and begins no number. -/
theorem ne_of_short {c d : CodePoint} (h : short? d = some c) : d ≠ '\n' ∧ d ≠ 'u' := by
  constructor
  · rintro rfl
    cases h
  · rintro rfl
    cases h

end Quotation

namespace Escaped

/-- **What is written between marks may stand there.** -/
theorem isInside (hmark : Lexeme.isMark mark = true) (h : Escaped mark value inside) :
    Quotation.Inside mark inside := by
  induction h with
  | nil => exact .nil
  | plain hc hline hslash h ih => exact .plain hc hslash hline ih
  | short hd h ih => exact .escaped (Quotation.ne_of_short hd).1 ih
  | number hn h ih =>
    obtain ⟨⟨_, ha⟩, ⟨_, hb⟩, ⟨_, hc⟩, ⟨_, hd⟩⟩ := Quotation.exists_hex hn
    have hdigits := (((ih.hex hmark hd).hex hmark hc).hex hmark hb).hex hmark ha
    exact .escaped (by decide) hdigits
  | kept hd hline hnumber h ih => exact .escaped hline ih

/-- **The escapes stand for the text.** -/
theorem decode_eq (h : Escaped mark value inside) : Quotation.decode inside = value := by
  induction h with
  | nil => exact Quotation.decode_nil
  | plain hc hline hslash h ih => rw [Quotation.decode_plain hslash, ih]
  | short hd h ih =>
    obtain ⟨hline, hnumber⟩ := Quotation.ne_of_short hd
    rw [Quotation.decode_escape hline, if_neg hnumber, hd, ih]
  | @number a b c d n value inside hn h ih =>
    have hdigits : Quotation.fourHex? (a :: b :: c :: d :: inside) = some n := hn
    rw [Quotation.decode_escape (by decide), if_pos rfl, hdigits, ← ih]
    rfl
  | @kept d value inside hd hline hnumber h ih =>
    rw [Quotation.decode_escape hline]
    by_cases hu : d = 'u'
    · rw [if_pos hu, hnumber hu, ih]
    · rw [if_neg hu, hd, ih]

end Escaped

end GraphFeed
