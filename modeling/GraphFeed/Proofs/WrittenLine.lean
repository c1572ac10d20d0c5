import GraphFeed.Record

/-!
# Lines that are written field by field

A field can be written in a line in two ways: between quote marks, each mark inside written twice, or
as it is, if it holds neither the delimiter nor a line end and does not begin with the quote mark
(`FieldWritten`). A line is such fields with a delimiter between each two of them (`LineWritten`).
Reading takes the fields out again.

* `run_written`: behind a written field, in whichever way, the reader holds that field and is at a
  place where it may end (`Mode.MayEnd`);
* `step_delimiter`, `finish_of_mayEnd`: at such a place a delimiter and the end of the line do the
  same thing, they end the field;
* `run_lineWritten`: so a line is read field by field, from states in which nothing is left of the
  fields before but these fields.

The reader looks for line ends before it looks for the quote mark. A quote mark that is a line end
itself quotes nothing (`lineEnd_quotes_nothing`), so no field is written between such marks.
-/

namespace GraphFeed.Splitter

/-! ## 1. Written fields and lines -/

/-- A field between quote marks, each mark inside written twice. -/
def inQuotes (quote : CodePoint) (field : Text) : Text :=
  quote :: (Text.replace field quote [quote, quote] ++ [quote])

/-- How a field can be written, where fields are parted by `delimiter` and quoted by the mark, if
    there is one. -/
inductive FieldWritten (delimiter : CodePoint) (quote? : Option CodePoint) : Text → Text → Prop
  /-- Between quote marks, which are no line ends. -/
  | quoted {quote : CodePoint} (h : quote? = some quote) (hend : isLineEnd quote = false)
      (field : Text) : FieldWritten delimiter quote? field (inQuotes quote field)
  /-- As it is. -/
  | plain {field : Text} (inside : ∀ c ∈ field, c ≠ delimiter ∧ isLineEnd c = false)
      (unquoted : ∀ c ∈ field.head?, some c ≠ quote?) :
      FieldWritten delimiter quote? field field

/-- How fields can be written as a line: one after the other, with a delimiter between each two. -/
inductive LineWritten (delimiter : CodePoint) (quote? : Option CodePoint) : List Text → Text → Prop
  | last {field written : Text} (h : FieldWritten delimiter quote? field written) :
      LineWritten delimiter quote? [field] written
  | more {field written line : Text} {fields : List Text}
      (h : FieldWritten delimiter quote? field written)
      (rest : LineWritten delimiter quote? fields line) :
      LineWritten delimiter quote? (field :: fields) (written ++ delimiter :: line)

variable {delimiter : CodePoint} {quote? : Option CodePoint} {field written line : Text}
  {fields : List Text}

/-- An empty field can be written as it is. -/
theorem FieldWritten.empty : FieldWritten delimiter quote? [] [] :=
  .plain (fun _ hc => absurd hc List.not_mem_nil) fun _ hc => absurd hc (Option.not_mem_none _)

/-- A written field does not begin with a line end. -/
theorem FieldWritten.head (h : FieldWritten delimiter quote? field written) :
    ∀ c ∈ written.head?, isLineEnd c = false := by
  cases h with
  | quoted _ hend =>
    rintro c ⟨⟩
    exact hend
  | plain inside _ => exact fun c hc => (inside c (List.mem_of_mem_head? hc)).2

/-- Nor does a written line. -/
theorem LineWritten.head (h : LineWritten delimiter quote? fields line)
    (hend : isLineEnd delimiter = false) : ∀ c ∈ line.head?, isLineEnd c = false := by
  cases h with
  | last hw => exact hw.head
  | @more _ written _ _ hw _ =>
    cases written with
    | nil =>
      rintro c ⟨⟩
      exact hend
    | cons x written => exact hw.head

/-! ## 2. Reading one field -/

/-- Inside quotes, text is read as it is, and a quote mark that is written twice as one. -/
theorem run_quoted (delimiter quote : CodePoint) (fields : List Text) (field before : Text) :
    run delimiter (some quote) ⟨.quoted, before, fields⟩ (Text.replace field quote [quote, quote])
      = .ok ⟨.quoted, field.reverse ++ before, fields⟩ := by
  induction field generalizing before with
  | nil => rfl
  | cons c field ih =>
    have hcons : Text.replace (c :: field) quote [quote, quote]
        = (if c = quote then [quote, quote] else [c]) ++ Text.replace field quote [quote, quote] :=
      List.flatMap_cons
    have hchar : run delimiter (some quote) ⟨.quoted, before, fields⟩
        (if c = quote then [quote, quote] else [c]) = .ok ⟨.quoted, c :: before, fields⟩ := by
      by_cases hc : c = quote
      · simp [hc, run, step, State.push]
      · simp [hc, run, step, State.push]
    rw [hcons, run_append, hchar, Except.bind, ih, List.reverse_cons, List.append_assoc,
      List.singleton_append]

/-- Behind the beginning of a field, text without delimiters and line ends is read as it is. -/
theorem run_plain (quote? : Option CodePoint) (fields : List Text) (before : Text)
    (h : ∀ c ∈ field, c ≠ delimiter ∧ isLineEnd c = false) :
    run delimiter quote? ⟨.plain, before, fields⟩ field
      = .ok ⟨.plain, field.reverse ++ before, fields⟩ := by
  induction field generalizing before with
  | nil => rfl
  | cons c field ih =>
    obtain ⟨⟨hc, hend⟩, hrest⟩ := List.forall_mem_cons.mp h
    have hstep : step delimiter quote? ⟨.plain, before, fields⟩ c
        = .ok ⟨.plain, c :: before, fields⟩ := by
      simp [step, hc, hend, State.push]
    rw [run, hstep]
    simp only
    rw [ih _ hrest, List.reverse_cons, List.append_assoc, List.singleton_append]

/-- Where a field may end: nothing of it was read, or it is not quoted, or its quotes are closed. -/
def Mode.MayEnd (mode : Mode) : Prop := mode = .fieldStart ∨ mode = .plain ∨ mode = .quoteSeen

/-- **A written field is read**, and may end then. -/
theorem run_written (h : FieldWritten delimiter quote? field written) (fields : List Text) :
    ∃ mode : Mode, mode.MayEnd ∧
      run delimiter quote? ⟨.fieldStart, [], fields⟩ written = .ok ⟨mode, field.reverse, fields⟩ := by
  cases h with
  | @quoted quote hquote hend =>
    subst hquote
    have hopen : step delimiter (some quote) ⟨.fieldStart, [], fields⟩ quote
        = .ok ⟨.quoted, [], fields⟩ := by
      simp [step, stepFieldStart, hend]
    have hclose : run delimiter (some quote) ⟨.quoted, field.reverse, fields⟩ [quote]
        = .ok ⟨.quoteSeen, field.reverse, fields⟩ := by
      simp [run, step]
    refine ⟨.quoteSeen, .inr (.inr rfl), ?_⟩
    rw [inQuotes, run, hopen]
    simp only
    rw [run_append, run_quoted, List.append_nil, Except.bind, hclose]
  | plain inside unquoted =>
    cases field with
    | nil => exact ⟨.fieldStart, .inl rfl, rfl⟩
    | cons c field =>
      obtain ⟨⟨hc, hend⟩, hrest⟩ := List.forall_mem_cons.mp inside
      have hopen : step delimiter quote? ⟨.fieldStart, [], fields⟩ c = .ok ⟨.plain, [c], fields⟩ := by
        simp [step, stepFieldStart, hend, unquoted c rfl, hc, State.push]
      refine ⟨.plain, .inr (.inl rfl), ?_⟩
      rw [run, hopen]
      simp only
      rw [run_plain quote? fields [c] hrest, List.reverse_cons]

/-! ## 3. Reading a line -/

/-- A field that is not too long is put to the fields before it. -/
theorem save_of_le (mode : Mode) (h : field.length ≤ fieldLimit) (fields : List Text) (next : Mode) :
    State.save ⟨mode, field.reverse, fields⟩ next = .ok ⟨next, [], field :: fields⟩ := by
  have hlimit : ¬ fieldLimit < field.reverse.length := by
    rw [List.length_reverse]
    omega
  rw [State.save, if_neg hlimit, List.reverse_reverse]

/-- A delimiter ends a field where it may end. -/
theorem step_delimiter (hd : some delimiter ≠ quote?) (hend : isLineEnd delimiter = false)
    {mode : Mode} (hmode : mode.MayEnd) (hlimit : field.length ≤ fieldLimit) (fields : List Text) :
    step delimiter quote? ⟨mode, field.reverse, fields⟩ delimiter
      = .ok ⟨.fieldStart, [], field :: fields⟩ := by
  rcases hmode with rfl | rfl | rfl
  · simp [step, stepFieldStart, hd, hend, save_of_le _ hlimit]
  · simp [step, hend, save_of_le _ hlimit]
  · simp [step, hd, save_of_le _ hlimit]

/-- The end of a line ends its last field. -/
theorem finish_of_mayEnd {mode : Mode} (hmode : mode.MayEnd) (hlimit : field.length ≤ fieldLimit)
    (fields : List Text) :
    State.finish ⟨mode, field.reverse, fields⟩ = .ok (fields.reverse ++ [field]) := by
  rcases hmode with rfl | rfl | rfl
  all_goals
    simp only [State.finish, save_of_le _ hlimit, Except.map, List.reverse_cons]

/-- **A written line is read field by field.** -/
theorem run_lineWritten (hd : some delimiter ≠ quote?) (hend : isLineEnd delimiter = false)
    (h : LineWritten delimiter quote? fields line) (hlimit : ∀ f ∈ fields, f.length ≤ fieldLimit)
    (before : List Text) :
    ((run delimiter quote? ⟨.fieldStart, [], before⟩ line).bind State.finish)
      = .ok (before.reverse ++ fields) := by
  induction h generalizing before with
  | last hw =>
    obtain ⟨mode, hmode, hrun⟩ := run_written hw before
    rw [hrun, Except.bind]
    exact finish_of_mayEnd hmode (hlimit _ List.mem_cons_self) before
  | @more f w line fields hw rest ih =>
    obtain ⟨hf, hfields⟩ := List.forall_mem_cons.mp hlimit
    obtain ⟨mode, hmode, hrun⟩ := run_written hw before
    rw [run_append, hrun, Except.bind, run, step_delimiter hd hend hmode hf]
    simp only
    rw [ih hfields, List.reverse_cons, List.append_assoc, List.singleton_append]

/-- A line that does not begin with a line end begins like a field. -/
theorem run_start {c : CodePoint} (hc : isLineEnd c = false) (line : Text) :
    run delimiter quote? .start (c :: line)
      = run delimiter quote? ⟨.fieldStart, [], []⟩ (c :: line) := by
  have hstep : step delimiter quote? .start c = step delimiter quote? ⟨.fieldStart, [], []⟩ c := by
    simp [step, State.start, hc, stepFieldStart, State.save, State.push]
  rw [run, run, hstep]

/-- **A written line has the fields that were written.** -/
theorem fields_written (hd : some delimiter ≠ quote?) (hend : isLineEnd delimiter = false)
    (h : LineWritten delimiter quote? fields line) (hlimit : ∀ f ∈ fields, f.length ≤ fieldLimit)
    (hne : line ≠ []) : Splitter.fields delimiter quote? line = .ok fields := by
  have hread := run_lineWritten hd hend h hlimit []
  obtain ⟨c, rest, rfl⟩ := List.exists_cons_of_ne_nil hne
  rw [← run_start (h.head hend c rfl)] at hread
  rw [Splitter.fields]
  cases hrun : run delimiter quote? .start (c :: rest) with
  | error fault =>
    rw [hrun] at hread
    cases hread
  | ok s =>
    rw [hrun] at hread
    exact hread

/-! ## 4. Splitting -/

/-- A non-empty line is split by reading its fields. -/
theorem splitWith_of_fields {s : Splitter} {d : CodePoint} (hne : line ≠ [])
    (h : Splitter.fields d (if d = s.quote then none else some s.quote) line = .ok fields) :
    s.splitWith (some [d]) line = .ok fields := by
  have hempty : line.isEmpty = false := by
    rw [List.isEmpty_eq_false_iff]
    exact hne
  simp only [splitWith, splitAt, hempty, Bool.false_eq_true, if_false, h]
  rfl

/-- **Splitting a line gives the fields that were written in it**, whichever of them were quoted:
    empty ones, delimiters and line ends in quotes, and quote marks within a field. -/
theorem split_written (s : Splitter) {d : CodePoint} {fields : List Text} {line : Text}
    (hd : d ≠ s.quote) (hend : isLineEnd d = false) (h : LineWritten d (some s.quote) fields line)
    (hlimit : ∀ f ∈ fields, f.length ≤ fieldLimit) (hne : line ≠ []) :
    s.splitWith (some [d]) line = .ok fields := by
  refine splitWith_of_fields hne ?_
  rw [if_neg hd]
  exact fields_written (fun h => hd (Option.some.inj h)) hend h hlimit hne

/-- A quoted quote mark, an empty field, a delimiter and a line end in quotes, and quote marks within
    a field that is not quoted. -/
theorem split_written_mixed :
    LineWritten ',' (some '"') ["say \"a\"", "", "x,y\nz", "5\"6\""]
        "\"say \"\"a\"\"\",,\"x,y\nz\",5\"6\"" ∧
      Splitter.standard.splitWith (some ",") "\"say \"\"a\"\"\",,\"x,y\nz\",5\"6\""
        = .ok ["say \"a\"", "", "x,y\nz", "5\"6\""] := by
  have h : LineWritten ',' (some '"') ["say \"a\"", "", "x,y\nz", "5\"6\""]
      "\"say \"\"a\"\"\",,\"x,y\nz\",5\"6\"" :=
    .more (.quoted rfl (by decide) _) (.more (.plain (by decide) (by decide))
      (.more (.quoted rfl (by decide) _) (.last (.plain (by decide) (by decide)))))
  exact ⟨h, split_written .standard (by decide) (by decide) h (by decide) (by decide)⟩

/-- **A line end as quote mark quotes nothing**: of the field `a` between two of them, the first one
    ends the line, and text behind it is refused. -/
theorem lineEnd_quotes_nothing :
    (',' : CodePoint) ≠ '\n' ∧ isLineEnd ',' = false ∧ inQuotes '\n' "a" = "\na\n" ∧
      (⟨',', '\n'⟩ : Splitter).splitWith (some ",") "\na\n"
        = .error (.splitting .textAfterLineEnd "\na\n") ∧
      (⟨',', '\n'⟩ : Splitter).splitWith (some ",") "\na\n" ≠ .ok ["a"] := by
  have hrefused : (⟨',', '\n'⟩ : Splitter).splitWith (some ",") "\na\n"
      = .error (.splitting .textAfterLineEnd "\na\n") := rfl
  refine ⟨by decide, by decide, rfl, hrefused, ?_⟩
  rw [hrefused]
  exact nofun

end GraphFeed.Splitter
