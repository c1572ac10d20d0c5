import GraphFeed.Digest.Sha1
import GraphFeed.Record
import GraphFeed.Template.Happening
import GraphFeed.Text.Upper

/-!
# What takes the place of a placeholder

A `Filler` says what takes the place of a placeholder, given the brace that opens it and its
interior: data, which is marked `resolved` and never looked at again, or cells of the template,
which are read on. There are two fillers:

* `fieldFiller` reads the interior as a field reference and puts in its value; where there is no
  value, the fallback takes the place;
* `commandFiller` runs the interior as a command and puts in its output.

A fallback is a part of the interior that it replaces (`Filler.fits`), so what is left to read gets
shorter with every placeholder.
-/

namespace GraphFeed

open Buffer (Cell)

/-! ## 1. Values -/

/-- Splits a value step after step; `none` where a step asks for a part that is not there. -/
def applySteps (s : Splitter) : List SplitStep → Text → Except Error (Option Text)
  | [], value => .ok (some value)
  | step :: rest, value =>
    match s.splitWith (some step.delimiter) value with
    | .error e => .error e
    | .ok parts =>
      if (parts.length : Int) < step.range.first then .ok none
      else
        applySteps s rest
          (Text.join step.delimiter (Span.slice parts (step.range.first - 1) step.range.last))

/-- The digest of a value. -/
def digest (value : Text) : Except Error Text :=
  match Utf8.encode value with
  | .error surrogates => .error (.unencodable surrogates)
  | .ok bytes => .ok (Sha1.hex bytes)

namespace Placeholder

/-- The value of a placeholder, or `none` where its fallback takes the place: the fields it names
    are empty, or a split step begins past the last part. -/
def value (s : Splitter) (p : Placeholder) (record : Record) : Except Error (Option Text) :=
  let selected := Text.join [s.delimiter] (Span.slice record (p.fields.first - 1) p.fields.last)
  if selected.isEmpty then .ok none
  else
    match applySteps s p.steps selected with
    | .error e => .error e
    | .ok none => .ok none
    | .ok (some value) =>
      let value := if p.upcased then value.upper else value
      if p.hashed then (digest value).map some else .ok (some value)

/-- The placeholder with the given interior. An interior without any code point names all fields. -/
def ofInterior (interior : Text) : Except Error Placeholder :=
  if interior.isEmpty then .ok .all else parse interior.strip

/-- The cells of the fallback of a placeholder. The fallback is what the stripped interior ends
    with, so the last origins of the interior are its own. -/
def fallbackCells (p : Placeholder) (interior : List Cell) : List Cell :=
  let origins := (Cell.strip interior).map (·.origin)
  (p.fallback.zip (origins.drop (origins.length - p.fallback.length))).map
    fun (c, origin) => ⟨⟨c, origin⟩, some .trusted⟩

theorem length_fallbackCells_le (p : Placeholder) (interior : List Cell) :
    (p.fallbackCells interior).length ≤ interior.length := by
  have h := Cell.length_strip_le interior
  simp only [fallbackCells, List.length_map, List.length_zip, List.length_drop]
  omega

theorem mark_of_mem_fallbackCells {p : Placeholder} {interior : List Cell} {c : Cell}
    (h : c ∈ p.fallbackCells interior) : c.mark = some .trusted := by
  obtain ⟨d, _, rfl⟩ := List.mem_map.mp h
  rfl

end Placeholder

/-! ## 2. Fillers -/

/-- What takes the place of a placeholder. -/
inductive Filling
  | data (value : Text)
  | template (cells : List Cell)

/-- What fills placeholders, given how many were filled with data before. What is taken from a
    template is no longer than the interior it replaces. -/
structure Filler where
  fill (filled : Nat) (brace : Cell) (interior : List Cell) :
    List Happening × Except Error Filling
  fits {filled : Nat} {brace : Cell} {interior : List Cell} {trace : List Happening}
    {cells : List Cell} (h : fill filled brace interior = (trace, .ok (.template cells))) :
    cells.length ≤ interior.length

/-- What takes the place of a field placeholder that has been read. -/
def Placeholder.filling (s : Splitter) (record : Record) (interior : List Cell) (p : Placeholder) :
    Except Error Filling :=
  (p.value s record).map fun
    | some value => .data value
    | none => .template (p.fallbackCells interior)

/-- Fills field placeholders. -/
def fieldFiller (s : Splitter) (record : Record) : Filler where
  fill _ _ interior :=
    let reading := Happening.reading (Cell.text interior).strip
    match Placeholder.ofInterior (Cell.text interior) with
    | .error e => ([reading], .error e)
    | .ok p => ([reading, .understood p], p.filling s record interior)
  fits {_ _ interior _ _} h := by
    split at h
    · cases h
    · rename_i p _
      simp only [Placeholder.filling, Prod.mk.injEq] at h
      cases hv : p.value s record with
      | error e => rw [hv] at h; cases h.2
      | ok v =>
        rw [hv] at h
        cases v with
        | some value => cases h.2
        | none => cases h.2; exact p.length_fallbackCells_le interior

/-- Fills field placeholders where there is no separator that is a text: what they say is read, but
    no fields can be joined. -/
def unjoinedFiller (kind : Value.Kind) : Filler where
  fill _ _ interior :=
    let reading := Happening.reading (Cell.text interior).strip
    match Placeholder.ofInterior (Cell.text interior) with
    | .error e => ([reading], .error e)
    | .ok p => ([reading, .understood p], .error (.noOperation kind "join"))
  fits {_ _ interior _ _} h := by
    split at h
    · cases h
    · cases h

/-- Of a field placeholder it is reported that its interior is read, and what it says. -/
theorem fieldFiller_reports {P : Happening → Prop} (hread : ∀ expression, P (.reading expression))
    (hunderstood : ∀ p, P (.understood p)) (s : Splitter) (record : Record) (filled : Nat) (brace : Cell)
    (interior : List Cell) : ∀ e ∈ ((fieldFiller s record).fill filled brace interior).1, P e := by
  simp only [fieldFiller]
  cases Placeholder.ofInterior (Cell.text interior) with
  | error _ => exact List.forall_mem_singleton.mpr (hread _)
  | ok p => exact List.forall_mem_cons.mpr ⟨hread _, List.forall_mem_singleton.mpr (hunderstood p)⟩

/-- **What fills a field placeholder** is said by its interior. -/
theorem fill_fieldFiller (s : Splitter) (record : Record) (filled : Nat) (brace : Cell)
    (interior : List Cell) :
    ((fieldFiller s record).fill filled brace interior).2
      = (Placeholder.ofInterior (Cell.text interior)).bind fun p => p.filling s record interior := by
  simp only [fieldFiller]
  cases Placeholder.ofInterior (Cell.text interior) with
  | error e => rfl
  | ok p => rfl

/-- What fills a field placeholder is its value, or else its fallback. -/
theorem fieldFiller_cases {s : Splitter} {record : Record} {filled : Nat} {brace : Cell}
    {interior : List Cell} {trace : List Happening} {filling : Filling}
    (h : (fieldFiller s record).fill filled brace interior = (trace, .ok filling)) :
    ∃ p, Placeholder.ofInterior (Cell.text interior) = .ok p ∧
      trace = [.reading (Cell.text interior).strip, .understood p] ∧
      ((∃ value, p.value s record = .ok (some value) ∧ filling = .data value) ∨
        p.value s record = .ok none ∧ filling = .template (p.fallbackCells interior)) := by
  simp only [fieldFiller] at h
  split at h
  · cases h
  · rename_i p hp
    rw [Prod.mk.injEq, Placeholder.filling] at h
    refine ⟨p, hp, h.1.symm, ?_⟩
    obtain ⟨_, hfilling⟩ := h
    cases hv : p.value s record with
    | error e =>
      rw [hv] at hfilling
      cases hfilling
    | ok v =>
      rw [hv] at hfilling
      cases v with
      | some value =>
        cases hfilling
        exact .inl ⟨value, rfl, rfl⟩
      | none =>
        cases hfilling
        exact .inr ⟨rfl, rfl⟩

/-- The text of a command's output as it is put into a buffer. -/
def Output.inlined (o : Output) : Text := o.standard.strip.replace '\n' " "

/-- The command in the interior of a placeholder, which begins with an exclamation mark. -/
def commandOf (interior : List Cell) : Text := unescapeCommand (Cell.text (interior.drop 1)).strip

/-- Fills command placeholders: the commands filled in before are those run before. -/
def commandFiller (runner : Runner) : Filler where
  fill calls brace interior :=
    match runner calls (commandOf interior) with
    | .error e => ([.running brace interior (commandOf interior)], .error e)
    | .ok output =>
      ([.running brace interior (commandOf interior), .answered output], .ok (.data output.inlined))
  fits h := by
    split at h
    · cases h
    · cases h

/-- Of a command placeholder it is reported that its command is run, and the output. -/
theorem commandFiller_reports {P : Happening → Prop} {brace : Cell} {interior : List Cell}
    (hrun : P (.running brace interior (commandOf interior))) (hanswered : ∀ o, P (.answered o))
    (runner : Runner) (filled : Nat) : ∀ e ∈ ((commandFiller runner).fill filled brace interior).1, P e := by
  simp only [commandFiller]
  cases runner filled (commandOf interior) with
  | error _ => exact List.forall_mem_singleton.mpr hrun
  | ok o => exact List.forall_mem_cons.mpr ⟨hrun, List.forall_mem_singleton.mpr (hanswered o)⟩

/-- What fills a command placeholder is the output of the command. -/
theorem commandFiller_cases {runner : Runner} {filled : Nat} {brace : Cell} {interior : List Cell}
    {trace : List Happening} {filling : Filling}
    (h : (commandFiller runner).fill filled brace interior = (trace, .ok filling)) :
    ∃ output, runner filled (commandOf interior) = .ok output ∧
      trace = [.running brace interior (commandOf interior), .answered output] ∧
      filling = .data output.inlined := by
  simp only [commandFiller] at h
  split at h
  · cases h
  · rename_i output hrun
    cases h
    exact ⟨output, hrun, rfl, rfl⟩

end GraphFeed
