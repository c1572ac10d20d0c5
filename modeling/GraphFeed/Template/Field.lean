import GraphFeed.Error

/-!
# Field references

The interior of a placeholder names a range of fields of a record:

```text
outer        := expr | expr '?' fallback
expr         := field | '#' field | '##' field
field        := fieldnumber splitexpr*
fieldnumber  := N | '-' N | N '-' N | N '-'
splitexpr    := '/' delimiter ':' fieldnumber
```

`N` is a run of the digits 0 to 9 that stands for a number from 1 on. The delimiter is one code
point, a backslash before it being skipped. The fallback is the rest of the text, whatever it
holds. `Placeholder.parse` reads from left to right without going back, so a text has at most one
reading; a text that has none is refused at the first code point that fits nowhere.
-/

namespace GraphFeed

/-! ## 1. Placeholders -/

/-- A range of items counted from 1, both ends included; without a last one it is open. -/
structure ItemRange where
  first : Int
  last : Option Int
deriving DecidableEq, Repr

/-- A further split of a value, and the range of its parts to keep. -/
structure SplitStep where
  delimiter : Text
  range : ItemRange
deriving DecidableEq

/-- What the interior of a placeholder says. -/
structure Placeholder where
  fields : ItemRange
  steps : List SplitStep
  /-- The digest of the value takes its place. -/
  hashed : Bool
  /-- The value is put into upper case, before it is hashed. -/
  upcased : Bool
  /-- The text that takes the place of a missing value. It is a template itself. -/
  fallback : Text
deriving DecidableEq

/-- The empty placeholder: all fields. -/
def Placeholder.all : Placeholder := ⟨⟨1, none⟩, [], false, false, []⟩

/-- The range has no last item. -/
def ItemRange.isOpen (r : ItemRange) : Bool := r.last.isNone

/-- The bounds of a range as entries of a description. -/
def ItemRange.entries (r : ItemRange) : List (Value × Value) :=
  [(.text "start", .int r.first),
   (.text "end", match r.last with
    | some n => .int n
    | none => .null)]

/-- The placeholder as a value, for log lines. -/
def Placeholder.describe (p : Placeholder) : Value :=
  let steps := p.steps.map fun s =>
    Value.mapping ((.text "delimiter", .text s.delimiter) :: s.range.entries)
  .mapping [
    (.text "field", .mapping (p.fields.entries ++ [(.text "steps", .list steps)])),
    (.text "hashed", .bool p.hashed),
    (.text "upcase", .bool p.upcased),
    (.text "fallback", .text p.fallback)]

namespace Placeholder

/-! ## 2. Reading -/

/-- Why reading stops: a fault at the beginning of `rest`, or a number that is too long. -/
inductive Refusal
  | stop (rest : Text) (fault : FieldFault)
  | numberTooLong (digits : Nat)

/-- The value of a run of digits. -/
def numberValue (digits : Text) : Nat := digits.foldl (fun n c => 10 * n + c.digit) 0

/-- Reads a field number. -/
def readNumber (t : Text) : Except Refusal (Nat × Text) :=
  let digits := t.takeWhile CodePoint.isDigit
  if digits.isEmpty then .error (.stop t .numberExpected)
  else if maxIntegerDigits < digits.length then .error (.numberTooLong digits.length)
  else if numberValue digits < 1 then .error (.stop t .numberTooSmall)
  else .ok (numberValue digits, t.dropWhile CodePoint.isDigit)

/-- The first code point is a digit. -/
def startsWithDigit (t : Text) : Bool := t.head?.any CodePoint.isDigit

/-- Reads what may follow the first number of a range. -/
def readLast (first : Nat) : Text → Except Refusal (ItemRange × Text)
  | [] => .ok (⟨first, some first⟩, [])
  | c :: t =>
    if c = '-' then
      if startsWithDigit t then
        (readNumber t).map fun (last, rest) => (⟨first, some last⟩, rest)
      else .ok (⟨first, none⟩, t)
    else .ok (⟨first, some first⟩, c :: t)

/-- Reads a range in one of the forms `N`, `-N`, `N-N` and `N-`. -/
def readRange (t : Text) : Except Refusal (ItemRange × Text) :=
  match t with
  | [] => .error (.stop [] .numberExpected)
  | c :: rest =>
    if c = '-' then (readNumber rest).map fun (last, rest) => (⟨1, some last⟩, rest)
    else
      match readNumber (c :: rest) with
      | .error refusal => .error refusal
      | .ok (first, rest) => readLast first rest

/-- Reads a delimiter: one code point, or a backslash and one code point. -/
def readDelimiter : Text → Except Refusal (CodePoint × Text)
  | [] => .error (.stop [] .endReached)
  | c :: t =>
    if c = '\\' then
      match t with
      | [] => .error (.stop [] .endReached)
      | d :: rest => .ok (d, rest)
    else .ok (c, t)

/-- Reads one given code point. -/
def expect (c : CodePoint) : Text → Except Refusal Text
  | [] => .error (.stop [] (.expected c))
  | d :: t => if d = c then .ok t else .error (.stop (d :: t) (.expected c))

/-- Reads a split step, the slash of which has been read. -/
def readStep (t : Text) : Except Refusal (SplitStep × Text) :=
  match readDelimiter t with
  | .error refusal => .error refusal
  | .ok (delimiter, t) =>
    match expect ':' t with
    | .error refusal => .error refusal
    | .ok t => (readRange t).map fun (range, rest) => (⟨[delimiter], range⟩, rest)

/-! ## 3. What is read is gone -/

theorem readNumber_length {t rest : Text} {n : Nat} (h : readNumber t = .ok (n, rest)) :
    rest.length < t.length := by
  simp only [readNumber] at h
  split at h
  · cases h
  · rename_i hne
    split at h
    · cases h
    · split at h
      · cases h
      · cases h
        have hsplit : (t.takeWhile CodePoint.isDigit ++ t.dropWhile CodePoint.isDigit).length
            = t.length := by rw [List.takeWhile_append_dropWhile]
        rw [List.length_append] at hsplit
        have hpos : 0 < (t.takeWhile CodePoint.isDigit).length := by
          rcases hl : t.takeWhile CodePoint.isDigit with _ | ⟨a, l⟩
          · simp [hl] at hne
          · simp
        omega

theorem readLast_length {first : Nat} {t rest : Text} {r : ItemRange}
    (h : readLast first t = .ok (r, rest)) : rest.length ≤ t.length := by
  cases t with
  | nil => unfold readLast at h; cases h; simp
  | cons c t =>
    simp only [readLast] at h
    split at h
    · split at h
      · cases hn : readNumber t with
        | error e => rw [hn] at h; cases h
        | ok p =>
          obtain ⟨last, rest'⟩ := p
          rw [hn] at h
          cases h
          have := readNumber_length hn
          simp only [List.length_cons]; omega
      · cases h; simp
    · cases h; simp

theorem readRange_length {t rest : Text} {r : ItemRange} (h : readRange t = .ok (r, rest)) :
    rest.length < t.length := by
  cases t with
  | nil => cases h
  | cons c t =>
    simp only [readRange] at h
    split at h
    · cases hn : readNumber t with
      | error e => rw [hn] at h; cases h
      | ok p =>
        obtain ⟨last, rest'⟩ := p
        rw [hn] at h
        cases h
        have := readNumber_length hn
        simp only [List.length_cons]; omega
    · cases hn : readNumber (c :: t) with
      | error e => rw [hn] at h; cases h
      | ok p =>
        obtain ⟨first, rest'⟩ := p
        rw [hn] at h
        have h1 := readNumber_length hn
        have h2 := readLast_length h
        omega

theorem readStep_length {t rest : Text} {s : SplitStep} (h : readStep t = .ok (s, rest)) :
    rest.length < t.length := by
  unfold readStep at h
  cases hd : readDelimiter t with
  | error e => rw [hd] at h; cases h
  | ok p =>
    obtain ⟨d, t₁⟩ := p
    rw [hd] at h
    have h₁ : t₁.length < t.length := by
      unfold readDelimiter at hd
      split at hd
      · cases hd
      · split at hd
        · split at hd
          · cases hd
          · cases hd; simp only [List.length_cons]; omega
        · cases hd; simp
    simp only at h
    cases he : expect ':' t₁ with
    | error e => rw [he] at h; cases h
    | ok t₂ =>
      rw [he] at h
      have h₂ : t₂.length ≤ t₁.length := by
        unfold expect at he
        split at he
        · cases he
        · split at he
          · cases he; simp
          · cases he
      simp only at h
      cases hr : readRange t₂ with
      | error e => rw [hr] at h; cases h
      | ok q =>
        obtain ⟨r, rest'⟩ := q
        rw [hr] at h
        cases h
        have h₃ := readRange_length hr
        show rest'.length < t.length
        omega

/-! ## 4. The whole interior -/

/-- Reads all split steps. -/
def readSteps (t : Text) : Except Refusal (List SplitStep × Text) :=
  match t with
  | [] => .ok ([], [])
  | c :: t' =>
    if c = '/' then
      match h : readStep t' with
      | .error refusal => .error refusal
      | .ok (step, rest) =>
        have : rest.length < t'.length := readStep_length h
        (readSteps rest).map fun (steps, rest) => (step :: steps, rest)
    else .ok ([], c :: t')
termination_by t.length

/-- Reads the marks in front of the field: whether the value is hashed, and whether it is upcased
    before. -/
def readMarks : Text → (Bool × Bool) × Text
  | [] => ((false, false), [])
  | c :: t =>
    if c = '#' then
      match t with
      | [] => ((true, false), [])
      | d :: rest => if d = '#' then ((true, true), rest) else ((true, false), d :: rest)
    else ((false, false), c :: t)

/-- Reads the fallback, with which the interior ends. -/
def readFallback : Text → Except Refusal Text
  | [] => .ok []
  | c :: t => if c = '?' then .ok t else .error (.stop (c :: t) (.unexpected c))

/-- Reads the interior of a placeholder. -/
def read (t : Text) : Except Refusal Placeholder :=
  let ((hashed, upcased), t) := readMarks t
  match readRange t with
  | .error refusal => .error refusal
  | .ok (fields, t) =>
    match readSteps t with
    | .error refusal => .error refusal
    | .ok (steps, t) => (readFallback t).map fun fallback =>
      ⟨fields, steps, hashed, upcased, fallback⟩

/-- The placeholder whose interior is `t`. -/
def parse (t : Text) : Except Error Placeholder :=
  (read t).mapError fun
    | .stop rest fault => .fieldReference fault (t.length - rest.length) t
    | .numberTooLong digits => .fieldNumberTooLong digits

end Placeholder

end GraphFeed
