import GraphFeed.Proofs.Numerals

/-!
# The grammar of field references

The grammar in the header of `Template/Field`, as trees: a `Reference` is a derivation, `written` is
the text it derives and `meaning` what it says. The four forms of a range begin alike, a delimiter
may be any of the code points that otherwise mean something, and the fallback may hold anything, so
each part is told from the next one by what the next one begins with (`EndsRange`, `EndsSteps`).

* `Reference.eq_of_written`: **a text has one derivation at most**;
* `parse_written`: **what is derived is read**, whatever the fallback holds, unless one of its
  numbers has too many digits.
-/

namespace GraphFeed

namespace Placeholder

/-! ## 1. Derivations -/

/-- A run of digits that stands for a number from 1 on. -/
@[ext] structure Numeral where
  digits : Text
  isDigit : ∀ c ∈ digits, c.isDigit = true
  positive : 1 ≤ numberValue digits

/-- The number that is meant. -/
def Numeral.value (n : Numeral) : Nat := numberValue n.digits

/-- A range of items: `N`, `-N`, `N-N` or `N-`. -/
inductive RangeForm
  | one (n : Numeral)
  | upTo (last : Numeral)
  | between (first last : Numeral)
  | onward (first : Numeral)

/-- A delimiter: any code point behind a backslash, or one other than a backslash by itself. -/
inductive DelimiterForm
  | plain (c : CodePoint) (h : c ≠ ('\\' : CodePoint))
  | escaped (c : CodePoint)

/-- A split step. -/
structure StepForm where
  delimiter : DelimiterForm
  range : RangeForm

/-- The marks in front of the field. -/
inductive Marks
  | none
  | hashed
  | upcased

/-- A derivation of the interior of a placeholder. -/
structure Reference where
  marks : Marks
  field : RangeForm
  steps : List StepForm
  /-- What stands behind the question mark, if there is one. -/
  fallback : Option Text

namespace RangeForm

def written : RangeForm → Text
  | one n => n.digits
  | upTo last => ('-' : CodePoint) :: last.digits
  | between first last => first.digits ++ ('-' : CodePoint) :: last.digits
  | onward first => first.digits ++ [('-' : CodePoint)]

def meaning : RangeForm → ItemRange
  | one n => ⟨n.value, some n.value⟩
  | upTo last => ⟨1, some last.value⟩
  | between first last => ⟨first.value, some last.value⟩
  | onward first => ⟨first.value, none⟩

def numerals : RangeForm → List Numeral
  | one n => [n]
  | upTo last => [last]
  | between first last => [first, last]
  | onward first => [first]

end RangeForm

namespace DelimiterForm

def written : DelimiterForm → Text
  | plain c _ => [c]
  | escaped c => ['\\', c]

def meaning : DelimiterForm → CodePoint
  | plain c _ => c
  | escaped c => c

end DelimiterForm

namespace StepForm

/-- What stands behind the slash. -/
def body (s : StepForm) : Text := s.delimiter.written ++ (':' : CodePoint) :: s.range.written

def written (s : StepForm) : Text := ('/' : CodePoint) :: s.body

def meaning (s : StepForm) : SplitStep := ⟨[s.delimiter.meaning], s.range.meaning⟩

end StepForm

namespace Marks

def written : Marks → Text
  | none => []
  | hashed => ['#']
  | upcased => ['#', '#']

/-- Whether the value is hashed, and whether it is upcased before. -/
def meaning : Marks → Bool × Bool
  | none => (false, false)
  | hashed => (true, false)
  | upcased => (true, true)

end Marks

/-- A fallback with the question mark in front of it. -/
def fallbackWritten : Option Text → Text
  | none => []
  | some fallback => ('?' : CodePoint) :: fallback

namespace Reference

def written (r : Reference) : Text :=
  r.marks.written ++
    (r.field.written ++ (r.steps.flatMap StepForm.written ++ fallbackWritten r.fallback))

def meaning (r : Reference) : Placeholder where
  fields := r.field.meaning
  steps := r.steps.map StepForm.meaning
  hashed := r.marks.meaning.1
  upcased := r.marks.meaning.2
  fallback := r.fallback.getD []

/-- The runs of digits that are read as numbers. -/
def numerals (r : Reference) : List Numeral :=
  r.field.numerals ++ r.steps.flatMap fun s => s.range.numerals

end Reference

/-! ## 2. Where a part ends -/

/-- What may stand behind a range: it begins with nothing that could continue it. -/
def EndsRange (t : Text) : Prop := ∀ c ∈ t.head?, c.isDigit = false ∧ c ≠ ('-' : CodePoint)

/-- What may stand behind the split steps. -/
def EndsSteps (t : Text) : Prop := ∀ c ∈ t.head?, c = ('?' : CodePoint)

theorem EndsRange.startsWithDigit {t : Text} (h : EndsRange t) : startsWithDigit t = false := by
  cases t with
  | nil => rfl
  | cons c t => exact (h c rfl).1

theorem EndsRange.ne_hyphen {t u : Text} (h : EndsRange t) : t ≠ ('-' : CodePoint) :: u := by
  rintro rfl
  exact (h _ rfl).2 rfl

theorem EndsSteps.ne_slash {t u : Text} (h : EndsSteps t) : t ≠ ('/' : CodePoint) :: u := by
  rintro rfl
  exact absurd (h _ rfl) (by decide)

theorem endsSteps_fallbackWritten (fallback : Option Text) :
    EndsSteps (fallbackWritten fallback) := by
  intro c hc
  cases fallback with
  | none => cases hc
  | some fallback =>
    cases hc
    rfl

/-- Behind a range there are steps, a fallback or nothing. -/
theorem endsRange_steps (steps : List StepForm) {t : Text} (ht : EndsSteps t) :
    EndsRange (steps.flatMap StepForm.written ++ t) := by
  intro c hc
  cases steps with
  | nil =>
    obtain rfl := ht c hc
    decide
  | cons s steps =>
    cases hc
    decide

namespace Numeral

theorem exists_cons (n : Numeral) : ∃ c rest, n.digits = c :: rest ∧ c.isDigit = true := by
  cases h : n.digits with
  | nil =>
    have hpositive := n.positive
    rw [h] at hpositive
    exact absurd hpositive (by decide)
  | cons c rest => exact ⟨c, rest, rfl, n.isDigit c (by rw [h]; exact List.mem_cons_self)⟩

theorem startsWithDigit (n : Numeral) (t : Text) : startsWithDigit (n.digits ++ t) = true := by
  obtain ⟨c, rest, hdigits, hc⟩ := n.exists_cons
  rw [hdigits]
  exact hc

theorem append_ne (n : Numeral) (t : Text) {u : Text}
    (hu : Placeholder.startsWithDigit u = false) : n.digits ++ t ≠ u := by
  rintro rfl
  exact absurd ((n.startsWithDigit t).symm.trans hu) (by decide)

theorem takeWhile_append (n : Numeral) {t : Text} (ht : Placeholder.startsWithDigit t = false) :
    (n.digits ++ t).takeWhile CodePoint.isDigit = n.digits := by
  have hrest : t.takeWhile CodePoint.isDigit = [] := by
    cases t with
    | nil => rfl
    | cons c t => exact List.takeWhile_cons_of_neg (by rw [show c.isDigit = false from ht]; decide)
  rw [List.takeWhile_append_of_pos n.isDigit, hrest, List.append_nil]

theorem dropWhile_append (n : Numeral) {t : Text} (ht : Placeholder.startsWithDigit t = false) :
    (n.digits ++ t).dropWhile CodePoint.isDigit = t := by
  have hsplit := List.takeWhile_append_dropWhile (p := CodePoint.isDigit) (l := n.digits ++ t)
  rw [n.takeWhile_append ht] at hsplit
  exact List.append_cancel_left hsplit

/-- A numeral ends where the digits end. -/
theorem append_inj {m n : Numeral} {t u : Text} (h : m.digits ++ t = n.digits ++ u)
    (ht : Placeholder.startsWithDigit t = false) (hu : Placeholder.startsWithDigit u = false) :
    m = n ∧ t = u := by
  have hdigits := congrArg (List.takeWhile CodePoint.isDigit) h
  have hrest := congrArg (List.dropWhile CodePoint.isDigit) h
  rw [m.takeWhile_append ht, n.takeWhile_append hu] at hdigits
  rw [m.dropWhile_append ht, n.dropWhile_append hu] at hrest
  exact ⟨Numeral.ext hdigits, hrest⟩

end Numeral

/-! ## 3. One derivation at most -/

/-- A range ends where nothing continues it. -/
theorem RangeForm.append_inj {a b : RangeForm} {t u : Text} (h : a.written ++ t = b.written ++ u)
    (ht : EndsRange t) (hu : EndsRange u) : a = b ∧ t = u := by
  cases a with
  | one m =>
    cases b with
    | one n =>
      obtain ⟨rfl, rfl⟩ := Numeral.append_inj h ht.startsWithDigit hu.startsWithDigit
      exact ⟨rfl, rfl⟩
    | upTo n => exact absurd h (m.append_ne _ rfl)
    | between n last =>
      rw [written, written, List.append_assoc] at h
      exact absurd (Numeral.append_inj h ht.startsWithDigit rfl).2 ht.ne_hyphen
    | onward n =>
      rw [written, written, List.append_assoc] at h
      exact absurd (Numeral.append_inj h ht.startsWithDigit rfl).2 ht.ne_hyphen
  | upTo m =>
    cases b with
    | one n => exact absurd h.symm (n.append_ne _ rfl)
    | upTo n =>
      obtain ⟨rfl, rfl⟩ :=
        Numeral.append_inj (List.cons.inj h).2 ht.startsWithDigit hu.startsWithDigit
      exact ⟨rfl, rfl⟩
    | between n last =>
      rw [written, written, List.append_assoc] at h
      exact absurd h.symm (n.append_ne _ rfl)
    | onward n =>
      rw [written, written, List.append_assoc] at h
      exact absurd h.symm (n.append_ne _ rfl)
  | between m last =>
    rw [written, List.append_assoc] at h
    cases b with
    | one n => exact absurd (Numeral.append_inj h rfl hu.startsWithDigit).2.symm hu.ne_hyphen
    | upTo n => exact absurd h (m.append_ne _ rfl)
    | between n last' =>
      rw [written, List.append_assoc] at h
      obtain ⟨rfl, hlast⟩ := Numeral.append_inj h rfl rfl
      obtain ⟨rfl, rfl⟩ :=
        Numeral.append_inj (List.cons.inj hlast).2 ht.startsWithDigit hu.startsWithDigit
      exact ⟨rfl, rfl⟩
    | onward n =>
      rw [written, List.append_assoc] at h
      obtain ⟨-, hlast⟩ := Numeral.append_inj h rfl rfl
      exact absurd (List.cons.inj hlast).2 (last.append_ne t hu.startsWithDigit)
  | onward m =>
    rw [written, List.append_assoc] at h
    cases b with
    | one n => exact absurd (Numeral.append_inj h rfl hu.startsWithDigit).2.symm hu.ne_hyphen
    | upTo n => exact absurd h (m.append_ne _ rfl)
    | between n last =>
      rw [written, List.append_assoc] at h
      obtain ⟨-, hlast⟩ := Numeral.append_inj h rfl rfl
      exact absurd (List.cons.inj hlast).2.symm (last.append_ne u ht.startsWithDigit)
    | onward n =>
      rw [written, List.append_assoc] at h
      obtain ⟨rfl, hlast⟩ := Numeral.append_inj h rfl rfl
      exact ⟨rfl, (List.cons.inj hlast).2⟩

/-- A delimiter is told from what follows by its first code point. -/
theorem DelimiterForm.append_inj {a b : DelimiterForm} {t u : Text}
    (h : a.written ++ t = b.written ++ u) : a = b ∧ t = u := by
  cases a with
  | plain c hc =>
    cases b with
    | plain d hd =>
      obtain ⟨rfl, rfl⟩ := List.cons.inj h
      exact ⟨rfl, rfl⟩
    | escaped d => exact absurd (List.cons.inj h).1 hc
  | escaped c =>
    cases b with
    | plain d hd => exact absurd (List.cons.inj h).1.symm hd
    | escaped d =>
      obtain ⟨rfl, rfl⟩ := List.cons.inj (List.cons.inj h).2
      exact ⟨rfl, rfl⟩

theorem StepForm.append_inj {a b : StepForm} {t u : Text} (h : a.written ++ t = b.written ++ u)
    (ht : EndsRange t) (hu : EndsRange u) : a = b ∧ t = u := by
  obtain ⟨delimiter, range⟩ := a
  obtain ⟨delimiter', range'⟩ := b
  simp only [written, body, List.cons_append, List.append_assoc] at h
  obtain ⟨rfl, hcolon⟩ := DelimiterForm.append_inj (List.cons.inj h).2
  obtain ⟨rfl, rfl⟩ := RangeForm.append_inj (List.cons.inj hcolon).2 ht hu
  exact ⟨rfl, rfl⟩

theorem steps_append_inj : ∀ {a b : List StepForm} {t u : Text},
    a.flatMap StepForm.written ++ t = b.flatMap StepForm.written ++ u →
      EndsSteps t → EndsSteps u → a = b ∧ t = u
  | [], [], _, _, h, _, _ => ⟨rfl, h⟩
  | [], _ :: _, _, _, h, ht, _ => absurd h ht.ne_slash
  | _ :: _, [], _, _, h, _, hu => absurd h.symm hu.ne_slash
  | s :: a, s' :: b, t, u, h, ht, hu => by
    rw [List.flatMap_cons, List.flatMap_cons, List.append_assoc, List.append_assoc] at h
    obtain ⟨rfl, hrest⟩ := StepForm.append_inj h (endsRange_steps a ht) (endsRange_steps b hu)
    obtain ⟨rfl, rfl⟩ := steps_append_inj hrest ht hu
    exact ⟨rfl, rfl⟩

theorem fallbackWritten_inj {a b : Option Text} (h : fallbackWritten a = fallbackWritten b) :
    a = b := by
  cases a with
  | none =>
    cases b with
    | none => rfl
    | some b => cases h
  | some a =>
    cases b with
    | none => cases h
    | some b => rw [(List.cons.inj h).2]

/-- A range does not begin with a mark. -/
theorem RangeForm.ne_mark (a : RangeForm) (t u : Text) :
    a.written ++ t ≠ ('#' : CodePoint) :: u := by
  cases a with
  | one n => exact n.append_ne _ rfl
  | upTo n => exact fun h => absurd (List.cons.inj h).1 (by decide)
  | between n last =>
    rw [written, List.append_assoc]
    exact n.append_ne _ rfl
  | onward n =>
    rw [written, List.append_assoc]
    exact n.append_ne _ rfl

theorem Marks.append_inj {a b : Marks} {t u : Text} (h : a.written ++ t = b.written ++ u)
    (ht : ∀ v, t ≠ ('#' : CodePoint) :: v) (hu : ∀ v, u ≠ ('#' : CodePoint) :: v) :
    a = b ∧ t = u := by
  cases a with
  | none =>
    cases b with
    | none => exact ⟨rfl, h⟩
    | hashed => exact absurd h (ht _)
    | upcased => exact absurd h (ht _)
  | hashed =>
    cases b with
    | none => exact absurd h.symm (hu _)
    | hashed => exact ⟨rfl, (List.cons.inj h).2⟩
    | upcased => exact absurd (List.cons.inj h).2 (ht _)
  | upcased =>
    cases b with
    | none => exact absurd h.symm (hu _)
    | hashed => exact absurd (List.cons.inj h).2.symm (hu _)
    | upcased => exact ⟨rfl, (List.cons.inj (List.cons.inj h).2).2⟩

/-- **A text has one derivation at most.** -/
theorem Reference.eq_of_written {a b : Reference} (h : a.written = b.written) : a = b := by
  obtain ⟨marks, field, steps, fallback⟩ := a
  obtain ⟨marks', field', steps', fallback'⟩ := b
  have hend := endsSteps_fallbackWritten fallback
  have hend' := endsSteps_fallbackWritten fallback'
  obtain ⟨rfl, hfield⟩ := Marks.append_inj h (field.ne_mark _) (field'.ne_mark _)
  obtain ⟨rfl, hsteps⟩ :=
    RangeForm.append_inj hfield (endsRange_steps steps hend) (endsRange_steps steps' hend')
  obtain ⟨rfl, hfallback⟩ := steps_append_inj hsteps hend hend'
  obtain rfl := fallbackWritten_inj hfallback
  rfl

/-! ## 4. What is derived is read -/

/-- The numeral is not too long to be read. -/
def Numeral.Short (n : Numeral) : Prop := n.digits.length ≤ maxIntegerDigits

theorem readNumber_written {n : Numeral} (hn : n.Short) {t : Text}
    (ht : startsWithDigit t = false) : readNumber (n.digits ++ t) = .ok (n.value, t) := by
  obtain ⟨c, rest, hdigits, -⟩ := n.exists_cons
  simp only [readNumber, n.takeWhile_append ht, n.dropWhile_append ht]
  rw [if_neg (by simp [hdigits]), if_neg (Nat.not_lt.mpr hn), if_neg (Nat.not_lt.mpr n.positive)]
  rfl

/-- A range that begins with a numeral is read from there on. -/
theorem readRange_numeral {n : Numeral} (hn : n.Short) {t : Text}
    (ht : startsWithDigit t = false) : readRange (n.digits ++ t) = readLast n.value t := by
  have hread := readNumber_written hn ht
  obtain ⟨c, rest, hdigits, hc⟩ := n.exists_cons
  rw [hdigits, List.cons_append] at hread ⊢
  rw [readRange, if_neg (ne_of_isDigit hc (.inl (by decide))), hread]

theorem readRange_written (a : RangeForm) (ha : ∀ n ∈ a.numerals, n.Short) {t : Text}
    (ht : EndsRange t) : readRange (a.written ++ t) = .ok (a.meaning, t) := by
  cases a with
  | one n =>
    rw [RangeForm.written,
      readRange_numeral (ha n (by simp [RangeForm.numerals])) ht.startsWithDigit]
    cases t with
    | nil => rfl
    | cons c t =>
      rw [readLast, if_neg (ht c rfl).2]
      rfl
  | upTo n =>
    rw [RangeForm.written, List.cons_append, readRange, if_pos rfl,
      readNumber_written (ha n (by simp [RangeForm.numerals])) ht.startsWithDigit]
    rfl
  | between n last =>
    rw [RangeForm.written, List.append_assoc, List.cons_append,
      readRange_numeral (ha n (by simp [RangeForm.numerals])) rfl, readLast, if_pos rfl,
      if_pos (last.startsWithDigit t),
      readNumber_written (ha last (by simp [RangeForm.numerals])) ht.startsWithDigit]
    rfl
  | onward n =>
    rw [RangeForm.written, List.append_assoc, List.cons_append, List.nil_append,
      readRange_numeral (ha n (by simp [RangeForm.numerals])) rfl, readLast, if_pos rfl,
      if_neg (by rw [ht.startsWithDigit]; decide)]
    rfl

theorem readDelimiter_written (d : DelimiterForm) (t : Text) :
    readDelimiter (d.written ++ t) = .ok (d.meaning, t) := by
  cases d with
  | plain c hc =>
    show readDelimiter (c :: t) = _
    simp only [readDelimiter, if_neg hc]
    rfl
  | escaped c => rfl

theorem readStep_written (s : StepForm) (hs : ∀ n ∈ s.range.numerals, n.Short) {t : Text}
    (ht : EndsRange t) : readStep (s.body ++ t) = .ok (s.meaning, t) := by
  rw [StepForm.body, List.append_assoc, List.cons_append, readStep, readDelimiter_written]
  dsimp only
  rw [expect, if_pos rfl]
  dsimp only
  rw [readRange_written s.range hs ht]
  rfl

theorem readSteps_slash {t rest : Text} {step : SplitStep} (h : readStep t = .ok (step, rest)) :
    readSteps (('/' : CodePoint) :: t)
      = (readSteps rest).map fun (steps, rest) => (step :: steps, rest) := by
  rw [readSteps, if_pos rfl]
  split
  · rename_i hrefused
    rw [h] at hrefused
    cases hrefused
  · rename_i hread
    rw [h] at hread
    cases hread
    rfl

theorem readSteps_written (steps : List StepForm) {t : Text} (ht : EndsSteps t) :
    (∀ s ∈ steps, ∀ n ∈ s.range.numerals, n.Short) →
      readSteps (steps.flatMap StepForm.written ++ t) = .ok (steps.map StepForm.meaning, t) := by
  induction steps with
  | nil =>
    intro _
    cases t with
    | nil =>
      rw [List.flatMap_nil, List.nil_append, readSteps]
      rfl
    | cons c t =>
      have hc : c ≠ ('/' : CodePoint) := by
        obtain rfl := ht c rfl
        decide
      rw [List.flatMap_nil, List.nil_append, readSteps, if_neg hc]
      rfl
  | cons s steps ih =>
    intro hshort
    have hs := readStep_written s (hshort s List.mem_cons_self) (endsRange_steps steps ht)
    rw [List.flatMap_cons, List.append_assoc, StepForm.written, List.cons_append, readSteps_slash hs,
      ih fun s' hs' => hshort s' (List.mem_cons_of_mem s hs')]
    rfl

theorem readMarks_written (m : Marks) {t : Text} (ht : ∀ u, t ≠ ('#' : CodePoint) :: u) :
    readMarks (m.written ++ t) = (m.meaning, t) := by
  have hmark : ∀ {c u}, t = c :: u → c ≠ ('#' : CodePoint) := by
    rintro c u rfl rfl
    exact ht u rfl
  cases m with
  | none =>
    cases t with
    | nil => rfl
    | cons c t =>
      show readMarks (c :: t) = _
      simp only [readMarks, if_neg (hmark rfl)]
      rfl
  | hashed =>
    cases t with
    | nil => rfl
    | cons c t =>
      show readMarks (('#' : CodePoint) :: c :: t) = _
      simp only [readMarks, if_neg (hmark rfl)]
      rfl
  | upcased => rfl

theorem readFallback_written (fallback : Option Text) :
    readFallback (fallbackWritten fallback) = .ok (fallback.getD []) := by
  cases fallback <;> rfl

/-- **What is derived is read**, whatever the fallback holds. -/
theorem parse_written (r : Reference) (hr : ∀ n ∈ r.numerals, n.Short) :
    parse r.written = .ok r.meaning := by
  have hfield : ∀ n ∈ r.field.numerals, n.Short := fun n hn => hr n (List.mem_append_left _ hn)
  have hsteps : ∀ s ∈ r.steps, ∀ n ∈ s.range.numerals, n.Short := fun s hs n hn =>
    hr n (List.mem_append_right _ (List.mem_flatMap.mpr ⟨s, hs, hn⟩))
  have hend := endsSteps_fallbackWritten r.fallback
  have hread : read r.written = .ok r.meaning := by
    simp only [read, Reference.written, readMarks_written _ (r.field.ne_mark _),
      readRange_written r.field hfield (endsRange_steps r.steps hend),
      readSteps_written r.steps hend hsteps, readFallback_written]
    rfl
  rw [parse, hread]
  rfl

end Placeholder

end GraphFeed
