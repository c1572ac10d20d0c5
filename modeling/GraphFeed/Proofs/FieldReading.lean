import GraphFeed.Proofs.FieldGrammar

/-!
# What field references are read as

`Proofs/FieldGrammar` shows that what the grammar derives is read. Here is the converse, reader by
reader: each answers with the meaning of a form that stands at the beginning of its text
(`Answers`), and it never gives up on the number of digits unless the text has a run of digits that
is too long.

* `read_answers`: **what is read is derived**;
* `Printable.exists_written`: every placeholder within the bounds of the grammar is printed as a
  text that the grammar derives;
* `parse_grammar`: **what is read is just what the grammar derives**, texts that are not derived are
  refused, and what is printed is read back.
-/

namespace GraphFeed

namespace Placeholder

/-! ## 1. Answers -/

/-- No run of digits is too long to be a number. -/
def ShortRuns (t : Text) : Prop :=
  ∀ run, run <:+: t → (∀ c ∈ run, CodePoint.isDigit c = true) → run.length ≤ maxIntegerDigits

theorem ShortRuns.of_infix {t u : Text} (ht : ShortRuns t) (h : u <:+: t) : ShortRuns u :=
  fun run hrun => ht run (hrun.trans h)

/-- What may be answered where forms are read: the meaning of one with which the text begins and what
    is left of the text, or a fault; the number of digits is the fault only of a text with a long
    run. -/
def Answers {form meaning : Type} (written : form → Text) (means : form → meaning) (t : Text) :
    Except Refusal (meaning × Text) → Prop
  | .ok (a, rest) => ∃ f, means f = a ∧ written f ++ rest = t
  | .error (.stop _ _) => True
  | .error (.numberTooLong _) => ¬ShortRuns t

section Composition

variable {form form' meaning meaning' : Type} {written : form → Text} {means : form → meaning}
  {written' : form' → Text} {means' : form' → meaning'} {t u : Text}

/-- A refusal inside a text is one of the text. -/
theorem Answers.of_error {refusal : Refusal} (h : Answers written means t (.error refusal)) :
    Answers written' means' (u ++ t) (.error refusal) := by
  cases refusal with
  | stop rest fault => exact trivial
  | numberTooLong digits => exact fun hshort => h (hshort.of_infix (List.suffix_append _ _).isInfix)

/-- Forms are read behind others, and both are taken as one form. -/
theorem Answers.map {x : Except Refusal (meaning × Text)} (h : Answers written means t x)
    (k : meaning → meaning')
    (hform : ∀ f, ∃ f', means' f' = k (means f) ∧ written' f' = u ++ written f) :
    Answers written' means' (u ++ t) (x.map fun answer => (k answer.1, answer.2)) := by
  cases x with
  | error refusal => exact h.of_error
  | ok answer =>
    obtain ⟨a, rest⟩ := answer
    obtain ⟨f, rfl, rfl⟩ := h
    obtain ⟨f', hmeans, hwritten⟩ := hform f
    exact ⟨f', hmeans, by rw [hwritten, List.append_assoc]⟩

end Composition

/-! ## 2. What the readers answer -/

theorem readNumber_answers (t : Text) : Answers Numeral.digits Numeral.value t (readNumber t) := by
  have hdigits : ∀ c ∈ t.takeWhile CodePoint.isDigit, c.isDigit = true :=
    List.all_eq_true.mp List.all_takeWhile
  simp only [readNumber]
  split
  · exact trivial
  · split
    · rename_i hlong
      exact fun hshort =>
        absurd (hshort _ (List.takeWhile_prefix _).isInfix hdigits) (Nat.not_le.mpr hlong)
    · split
      · exact trivial
      · rename_i hsmall
        exact ⟨⟨_, hdigits, Nat.not_lt.mp hsmall⟩, rfl, List.takeWhile_append_dropWhile⟩

theorem readLast_answers (first : Numeral) (t : Text) :
    Answers RangeForm.written RangeForm.meaning (first.digits ++ t) (readLast first.value t) := by
  cases t with
  | nil => exact ⟨.one first, rfl, rfl⟩
  | cons c t =>
    rw [readLast]
    split
    · rename_i hc
      subst hc
      split
      · rw [← List.singleton_append, ← List.append_assoc]
        refine (readNumber_answers t).map (fun last : Nat => (⟨first.value, some last⟩ : ItemRange))
          fun last => ⟨.between first last, rfl, ?_⟩
        rw [List.append_assoc]
        rfl
      · exact ⟨.onward first, rfl, by rw [RangeForm.written, List.append_assoc]; rfl⟩
    · exact ⟨.one first, rfl, rfl⟩

theorem readRange_answers (t : Text) :
    Answers RangeForm.written RangeForm.meaning t (readRange t) := by
  cases t with
  | nil => exact trivial
  | cons c t =>
    rw [readRange]
    split
    · rename_i hc
      subst hc
      rw [← List.singleton_append]
      exact (readNumber_answers t).map (fun last : Nat => (⟨1, some last⟩ : ItemRange)) fun last =>
        ⟨RangeForm.upTo last, rfl, rfl⟩
    · have hnumber := readNumber_answers (c :: t)
      cases hread : readNumber (c :: t) with
      | error refusal =>
        rw [hread] at hnumber
        exact hnumber.of_error (u := [])
      | ok answer =>
        rw [hread] at hnumber
        obtain ⟨_, rest⟩ := answer
        obtain ⟨first, rfl, hsplit⟩ := hnumber
        rw [← hsplit]
        exact readLast_answers first rest

theorem readDelimiter_answers (t : Text) :
    Answers DelimiterForm.written DelimiterForm.meaning t (readDelimiter t) := by
  cases t with
  | nil => exact trivial
  | cons c t =>
    simp only [readDelimiter]
    split
    · rename_i hc
      subst hc
      cases t with
      | nil => exact trivial
      | cons d rest => exact ⟨.escaped d, rfl, rfl⟩
    · rename_i hc
      exact ⟨.plain c hc, rfl, rfl⟩

theorem expect_cases (c : CodePoint) (t : Text) :
    (∃ rest, t = c :: rest ∧ expect c t = .ok rest) ∨
      ∃ rest fault, expect c t = .error (.stop rest fault) := by
  cases t with
  | nil => exact .inr ⟨_, _, rfl⟩
  | cons d rest =>
    rw [expect]
    split
    · rename_i hd
      exact .inl ⟨rest, by rw [hd], rfl⟩
    · exact .inr ⟨_, _, rfl⟩

theorem readStep_answers (t : Text) : Answers StepForm.body StepForm.meaning t (readStep t) := by
  rw [readStep]
  have hdelimiter := readDelimiter_answers t
  cases hread : readDelimiter t with
  | error refusal =>
    rw [hread] at hdelimiter
    exact hdelimiter.of_error (u := [])
  | ok answer =>
    rw [hread] at hdelimiter
    obtain ⟨_, t'⟩ := answer
    obtain ⟨delimiter, rfl, rfl⟩ := hdelimiter
    dsimp only
    obtain ⟨rest, rfl, hcolon⟩ | ⟨rest, fault, hstop⟩ := expect_cases ':' t'
    · rw [hcolon, ← List.singleton_append, ← List.append_assoc]
      refine (readRange_answers rest).map (fun range => (⟨[delimiter.meaning], range⟩ : SplitStep))
        fun range => ⟨⟨delimiter, range⟩, rfl, ?_⟩
      rw [List.append_assoc]
      rfl
    · rw [hstop]
      exact trivial

theorem readSteps_answers (t : Text) :
    Answers (List.flatMap StepForm.written) (List.map StepForm.meaning) t (readSteps t) := by
  fun_induction readSteps t with
  | case1 => exact ⟨[], rfl, rfl⟩
  | case2 t refusal hrefused =>
    have hstep := readStep_answers t
    rw [hrefused] at hstep
    exact hstep.of_error (u := ['/'])
  | case3 t step rest hread _ ih =>
    have hstep := readStep_answers t
    rw [hread] at hstep
    obtain ⟨s, rfl, rfl⟩ := hstep
    exact ih.map (u := s.written) (fun steps => s.meaning :: steps) fun steps =>
      ⟨s :: steps, rfl, rfl⟩
  | case4 c t hc => exact ⟨[], rfl, rfl⟩

theorem readMarks_answers (t : Text) :
    ∃ m : Marks, m.meaning = (readMarks t).1 ∧ m.written ++ (readMarks t).2 = t := by
  cases t with
  | nil => exact ⟨.none, rfl, rfl⟩
  | cons c t =>
    simp only [readMarks]
    split
    · rename_i hc
      subst hc
      cases t with
      | nil => exact ⟨.hashed, rfl, rfl⟩
      | cons d rest =>
        dsimp only
        split
        · rename_i hd
          subst hd
          exact ⟨.upcased, rfl, rfl⟩
        · exact ⟨.hashed, rfl, rfl⟩
    · exact ⟨.none, rfl, rfl⟩

theorem readFallback_cases (t : Text) :
    (∃ fallback : Option Text, fallbackWritten fallback = t ∧
      readFallback t = .ok (fallback.getD [])) ∨
      ∃ rest fault, readFallback t = .error (.stop rest fault) := by
  cases t with
  | nil => exact .inl ⟨none, rfl, rfl⟩
  | cons c t =>
    rw [readFallback]
    split
    · rename_i hc
      subst hc
      exact .inl ⟨some t, rfl, rfl⟩
    · exact .inr ⟨_, _, rfl⟩

/-- **What is read is derived**, to the end of the text. -/
theorem read_answers (t : Text) :
    Answers Reference.written Reference.meaning t ((read t).map fun p => (p, [])) := by
  obtain ⟨m, hmarks, hsplit⟩ := readMarks_answers t
  rcases hm : readMarks t with ⟨⟨hashed, upcased⟩, t₁⟩
  rw [hm] at hmarks hsplit
  subst hsplit
  simp only [read, hm]
  have hfield := readRange_answers t₁
  cases hread : readRange t₁ with
  | error refusal =>
    rw [hread] at hfield
    exact hfield.of_error
  | ok answer =>
    rw [hread] at hfield
    obtain ⟨_, t₂⟩ := answer
    obtain ⟨field, rfl, rfl⟩ := hfield
    have hsteps := readSteps_answers t₂
    dsimp only
    cases hread' : readSteps t₂ with
    | error refusal =>
      rw [hread'] at hsteps
      rw [← List.append_assoc]
      exact hsteps.of_error
    | ok answer =>
      rw [hread'] at hsteps
      obtain ⟨_, t₃⟩ := answer
      obtain ⟨steps, rfl, rfl⟩ := hsteps
      dsimp only
      obtain ⟨fallback, rfl, hfallback⟩ | ⟨rest, fault, hstop⟩ := readFallback_cases t₃
      · rw [hfallback]
        refine ⟨⟨m, field, steps, fallback⟩, ?_, List.append_nil _⟩
        rw [Reference.meaning, hmarks]
      · rw [hstop]
        exact trivial

/-! ## 3. Printing -/

/-- The bound of a range that can be read: a number from 1 on, of no more digits than are read. -/
structure IsBound (n : Int) : Prop where
  positive : 1 ≤ n
  short : (Text.ofInt n).length ≤ maxIntegerDigits

/-- A bound in digits. -/
theorem IsBound.exists_numeral {n : Int} (h : IsBound n) :
    ∃ m : Numeral, m.digits = Text.ofInt n ∧ (m.value : Int) = n ∧ m.Short := by
  have hdigits : Text.ofInt n = Text.ofNat n.natAbs := by
    have hpositive := h.positive
    rw [Text.ofInt, if_neg (by omega)]
  have hvalue : numberValue (Text.ofInt n) = n.natAbs := by rw [hdigits, numberValue_ofNat]
  have hpositive := h.positive
  refine ⟨⟨Text.ofInt n, fun c hc => ?_, by omega⟩, rfl, ?_, h.short⟩
  · rw [hdigits] at hc
    exact isDigit_ofNat hc
  · rw [Numeral.value, hvalue]
    omega

end Placeholder

/-- A range as it is written in a field reference. -/
def ItemRange.printed (r : ItemRange) : Text :=
  match r.last with
  | none => Text.ofInt r.first ++ [('-' : CodePoint)]
  | some last =>
    if last = r.first then Text.ofInt last
    else Text.ofInt r.first ++ ('-' : CodePoint) :: Text.ofInt last

/-- A split step as it is written in a field reference. -/
def SplitStep.printed (s : SplitStep) : Text :=
  ('/' : CodePoint) :: (s.delimiter.replace '\\' ['\\', '\\'] ++ (':' : CodePoint) :: s.range.printed)

namespace Placeholder

/-- The marks in front of the field. -/
def printedMarks (hashed upcased : Bool) : Text :=
  if hashed then if upcased then ['#', '#'] else ['#'] else []

/-- A fallback, if there is one. -/
def printedFallback (fallback : Text) : Text :=
  if fallback = [] then [] else ('?' : CodePoint) :: fallback

/-- The field reference that says what the placeholder says. -/
def printed (p : Placeholder) : Text :=
  printedMarks p.hashed p.upcased ++
    (p.fields.printed ++ (p.steps.flatMap SplitStep.printed ++ printedFallback p.fallback))

/-- Both bounds can be read. -/
def PrintableRange (r : ItemRange) : Prop := IsBound r.first ∧ ∀ last ∈ r.last, IsBound last

/-- What the grammar can say: bounds that can be read, delimiters of one code point, and upper case
    only of a value that is hashed. -/
structure Printable (p : Placeholder) : Prop where
  fields : PrintableRange p.fields
  steps : ∀ s ∈ p.steps, (∃ c, s.delimiter = [c]) ∧ PrintableRange s.range
  marks : p.upcased = true → p.hashed = true

theorem PrintableRange.exists_written {r : ItemRange} (h : PrintableRange r) :
    ∃ a : RangeForm, a.written = r.printed ∧ a.meaning = r ∧ ∀ n ∈ a.numerals, n.Short := by
  obtain ⟨first, last⟩ := r
  obtain ⟨hfirst, hlast⟩ := h
  obtain ⟨m, hdigits, hvalue, hshort⟩ := hfirst.exists_numeral
  cases last with
  | none =>
    refine ⟨.onward m, ?_, ?_, ?_⟩
    · rw [RangeForm.written, hdigits]
      rfl
    · rw [RangeForm.meaning, hvalue]
    · simpa [RangeForm.numerals] using hshort
  | some last =>
    obtain ⟨m', hdigits', hvalue', hshort'⟩ := (hlast last rfl).exists_numeral
    by_cases hsame : last = first
    · subst hsame
      refine ⟨.one m, ?_, ?_, ?_⟩
      · simp [RangeForm.written, ItemRange.printed, hdigits]
      · rw [RangeForm.meaning, hvalue]
      · simpa [RangeForm.numerals] using hshort
    · refine ⟨.between m m', ?_, ?_, ?_⟩
      · simp [RangeForm.written, ItemRange.printed, hdigits, hdigits', hsame]
      · rw [RangeForm.meaning, hvalue, hvalue']
      · simpa [RangeForm.numerals] using ⟨hshort, hshort'⟩

theorem exists_delimiter (c : CodePoint) :
    ∃ d : DelimiterForm, d.written = Text.replace [c] '\\' ['\\', '\\'] ∧ d.meaning = c := by
  by_cases hc : c = ('\\' : CodePoint)
  · subst hc
    exact ⟨.escaped _, rfl, rfl⟩
  · exact ⟨.plain c hc, by simp [DelimiterForm.written, Text.replace, hc], rfl⟩

theorem exists_steps (steps : List SplitStep) :
    (∀ s ∈ steps, (∃ c, s.delimiter = [c]) ∧ PrintableRange s.range) →
      ∃ forms : List StepForm, forms.flatMap StepForm.written = steps.flatMap SplitStep.printed ∧
        forms.map StepForm.meaning = steps ∧ ∀ s ∈ forms, ∀ n ∈ s.range.numerals, n.Short := by
  induction steps with
  | nil => exact fun _ => ⟨[], rfl, rfl, by simp⟩
  | cons s steps ih =>
    intro h
    obtain ⟨delimiter, range⟩ := s
    obtain ⟨⟨c, rfl⟩, hrange⟩ := h _ List.mem_cons_self
    obtain ⟨d, hdelimiter, rfl⟩ := exists_delimiter c
    obtain ⟨a, hwritten, rfl, hshort⟩ := hrange.exists_written
    obtain ⟨forms, hforms, hmeaning, hall⟩ := ih fun s hs => h s (List.mem_cons_of_mem _ hs)
    refine ⟨⟨d, a⟩ :: forms, ?_, ?_, ?_⟩
    · rw [List.flatMap_cons, List.flatMap_cons, hforms, StepForm.written, StepForm.body,
        SplitStep.printed, hdelimiter, hwritten]
    · rw [List.map_cons, hmeaning]
      rfl
    · intro s hs
      rcases List.mem_cons.mp hs with rfl | hs
      · exact hshort
      · exact hall s hs

theorem exists_marks {hashed upcased : Bool} (h : upcased = true → hashed = true) :
    ∃ m : Marks, m.written = printedMarks hashed upcased ∧ m.meaning = (hashed, upcased) := by
  cases hashed with
  | false =>
    cases upcased with
    | false => exact ⟨.none, rfl, rfl⟩
    | true => exact absurd (h rfl) (by decide)
  | true =>
    cases upcased with
    | false => exact ⟨.hashed, rfl, rfl⟩
    | true => exact ⟨.upcased, rfl, rfl⟩

theorem exists_fallback (fallback : Text) :
    ∃ f : Option Text, fallbackWritten f = printedFallback fallback ∧ f.getD [] = fallback := by
  by_cases h : fallback = []
  · exact ⟨none, by rw [printedFallback, if_pos h, fallbackWritten], h.symm⟩
  · exact ⟨some fallback, by rw [printedFallback, if_neg h, fallbackWritten], rfl⟩

/-- **What is printed is derived**, by digits that can be read. -/
theorem Printable.exists_written {p : Placeholder} (h : Printable p) :
    ∃ r : Reference, r.written = p.printed ∧ r.meaning = p ∧ ∀ n ∈ r.numerals, n.Short := by
  obtain ⟨m, hmarks, hmeaning⟩ := exists_marks h.marks
  obtain ⟨field, hfield, hrange, hshort⟩ := h.fields.exists_written
  obtain ⟨steps, hsteps, hmap, hall⟩ := exists_steps p.steps h.steps
  obtain ⟨fallback, hfallback, hget⟩ := exists_fallback p.fallback
  refine ⟨⟨m, field, steps, fallback⟩, ?_, ?_, ?_⟩
  · rw [Reference.written, printed, hmarks, hfield, hsteps, hfallback]
  · rw [Reference.meaning, hrange, hmap, hmeaning, hget]
  · intro n hn
    rcases List.mem_append.mp hn with hn | hn
    · exact hshort n hn
    · obtain ⟨s, hs, hn⟩ := List.mem_flatMap.mp hn
      exact hall s hs n hn

/-! ## 4. What is read is what is derived -/

theorem RangeForm.digits_infix {a : RangeForm} {n : Numeral} (h : n ∈ a.numerals) :
    n.digits <:+: a.written := by
  cases a with
  | one m =>
    obtain rfl := List.mem_singleton.mp h
    exact List.infix_rfl
  | upTo m =>
    obtain rfl := List.mem_singleton.mp h
    exact (List.suffix_cons _ _).isInfix
  | between first last =>
    rcases List.mem_cons.mp h with rfl | h
    · exact (List.prefix_append _ _).isInfix
    · obtain rfl := List.mem_singleton.mp h
      exact ((List.suffix_cons _ _).trans (List.suffix_append _ _)).isInfix
  | onward m =>
    obtain rfl := List.mem_singleton.mp h
    exact (List.prefix_append _ _).isInfix

theorem StepForm.range_infix {s : StepForm} {steps : List StepForm} (h : s ∈ steps) :
    s.range.written <:+: steps.flatMap StepForm.written := by
  obtain ⟨before, after, rfl⟩ := List.append_of_mem h
  have hrange : s.range.written <:+ s.written :=
    ((List.suffix_cons _ _).trans (List.suffix_append _ _)).trans (List.suffix_cons _ _)
  rw [List.flatMap_append, List.flatMap_cons]
  exact (hrange.isInfix.trans (List.prefix_append _ _).isInfix).trans
    (List.suffix_append _ _).isInfix

/-- **Where no run of digits is too long, no numeral is.** -/
theorem Reference.short_of_shortRuns {r : Reference} (h : ShortRuns r.written) :
    ∀ n ∈ r.numerals, n.Short := by
  intro n hn
  refine h n.digits ?_ n.isDigit
  -- the field stands behind the marks, and the steps behind the field
  rcases List.mem_append.mp hn with hn | hn
  · exact ((RangeForm.digits_infix hn).trans (List.prefix_append _ _).isInfix).trans
      (List.suffix_append _ _).isInfix
  · obtain ⟨s, hs, hn⟩ := List.mem_flatMap.mp hn
    exact (((RangeForm.digits_infix hn).trans (StepForm.range_infix hs)).trans
      (List.prefix_append _ _).isInfix).trans
        ((List.suffix_append _ _).trans (List.suffix_append _ _)).isInfix

/-- A text that can be read is derived, and one that cannot be is refused for its fault. -/
theorem parse_cases {t : Text} (ht : ShortRuns t) :
    (∃ r : Reference, r.written = t ∧ parse t = .ok r.meaning) ∨
      ∃ fault position, parse t = .error (.fieldReference fault position t) := by
  have hread := read_answers t
  cases hparse : read t with
  | ok p =>
    rw [hparse] at hread
    obtain ⟨r, rfl, hwritten⟩ := hread
    rw [List.append_nil] at hwritten
    exact .inl ⟨r, hwritten, by rw [parse, hparse]; rfl⟩
  | error refusal =>
    rw [hparse] at hread
    cases refusal with
    | stop rest fault => exact .inr ⟨_, _, by rw [parse, hparse]; rfl⟩
    | numberTooLong digits => exact absurd ht hread

/-- **Field references are read as the grammar has them.** Where no run of digits is too long to be
    a number, a text is read as a placeholder if, and only if, it is derived with that meaning; it
    has one derivation at most; and it is refused, for a fault in this very text, just when it has
    none. Whatever placeholder the grammar can say is printed as a text that is read as it. -/
theorem parse_grammar :
    (∀ t : Text, ShortRuns t →
      (∀ p, parse t = .ok p ↔ ∃ r : Reference, r.written = t ∧ r.meaning = p) ∧
      (∀ r r' : Reference, r.written = t → r'.written = t → r = r') ∧
      ((∃ fault position, parse t = .error (.fieldReference fault position t)) ↔
        ¬∃ r : Reference, r.written = t)) ∧
    ∀ p : Placeholder, Printable p → parse p.printed = .ok p := by
  refine ⟨fun t ht => ⟨fun p => ⟨fun h => ?_, ?_⟩, fun r r' h h' => ?_, ?_, fun h => ?_⟩,
    fun p hp => ?_⟩
  · obtain ⟨r, hr, hparse⟩ | ⟨fault, position, hparse⟩ := parse_cases ht
    · exact ⟨r, hr, Except.ok.inj (hparse.symm.trans h)⟩
    · rw [hparse] at h
      cases h
  · rintro ⟨r, rfl, rfl⟩
    exact parse_written r (Reference.short_of_shortRuns ht)
  · exact Reference.eq_of_written (h.trans h'.symm)
  · rintro ⟨fault, position, hparse⟩ ⟨r, rfl⟩
    rw [parse_written r (Reference.short_of_shortRuns ht)] at hparse
    cases hparse
  · obtain ⟨r, hr, -⟩ | hparse := parse_cases ht
    · exact absurd ⟨r, hr⟩ h
    · exact hparse
  · obtain ⟨r, hr, hmeaning, hshort⟩ := hp.exists_written
    rw [← hr, parse_written r hshort, hmeaning]

/-- A delimiter that needs its backslash, and a fallback that is no text of the grammar. -/
theorem parse_grammar_backslash :
    let t : Text := ['#', '2', '-', '/', '\\', '\\', ':', '-', '1', '?', '{']
    let p : Placeholder := ⟨⟨2, none⟩, [⟨['\\'], ⟨1, some 1⟩⟩], true, false, ['{']⟩
    ShortRuns t ∧ parse t = .ok p ∧ Printable p ∧ parse p.printed = .ok p := by
  intro t p
  have hruns : ShortRuns t := fun run hrun _ =>
    Nat.le_trans hrun.length_le (by decide : t.length ≤ maxIntegerDigits)
  have hprintable : Printable p :=
    ⟨⟨⟨by decide, by decide⟩, nofun⟩,
      fun s hs => by
        obtain rfl := List.mem_singleton.mp hs
        refine ⟨⟨_, rfl⟩, ⟨by decide, by decide⟩, fun last hlast => ?_⟩
        cases hlast
        exact ⟨by decide, by decide⟩,
      fun _ => rfl⟩
  let two : Numeral := ⟨['2'], by decide, by decide⟩
  let one : Numeral := ⟨['1'], by decide, by decide⟩
  refine ⟨hruns, ((parse_grammar.1 t hruns).1 p).mpr ?_, hprintable, parse_grammar.2 p hprintable⟩
  exact ⟨⟨.hashed, .onward two, [⟨.escaped '\\', .upTo one⟩], some ['{']⟩, rfl, rfl⟩

end Placeholder

end GraphFeed
