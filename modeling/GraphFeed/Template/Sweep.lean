import GraphFeed.Template.Brace
import GraphFeed.Template.Filling

/-!
# Sweeps

A sweep goes through the cells of a buffer from left to right and resolves every live brace of one
kind that it meets (`resolveBrace`): a brace of the template is opened, and what its placeholder
stands for takes its place; a brace of data gets a guard in front. It goes on behind a guarded brace
and behind data that it has put in, but what was taken from the template is read on.

What is left to read gets shorter with every step (`resolveBrace_length`), so a sweep ends.
-/

namespace GraphFeed

open Buffer (Cell)

/-! ## 1. Live braces -/

/-- Whether the brace after a cell is unescaped. A backslash of data escapes nothing; of a
    backslash without a mark it cannot be told. -/
def unescapedAfter : Option Cell → Except Error Bool
  | none => .ok true
  | some before =>
    if before.char ≠ ('\\' : CodePoint) then .ok true
    else
      match before.mark with
      | some m => .ok (m = .resolved)
      | none => .error .listIndex

/-- Whether a cell is a live brace of a kind, given the cells before and after it. A brace that
    ends the text is not live. -/
def Phase.isLive (phase : Phase) (before : Option Cell) (c : Cell) (next : Option Cell) :
    Except Error Bool :=
  if c.char ≠ ('{' : CodePoint) then .ok false
  else
    match next with
    | none => .ok false
    | some next =>
      match unescapedAfter before with
      | .error e => .error e
      | .ok unescaped => .ok (unescaped && phase.opens next.char)

/-- What is no brace is not live. -/
theorem Phase.isLive_of_ne {phase : Phase} {before next : Option Cell} {c : Cell}
    (h : c.char ≠ ('{' : CodePoint)) : phase.isLive before c next = .ok false := by
  simp [isLive, h]

/-- The class of a cell for the scan of braces: a backslash of data is an ordinary code point. -/
def Buffer.Cell.token (c : Cell) : Brace.Token :=
  if c.char = ('\\' : CodePoint) then
    match c.mark with
    | some m => Brace.classify c.char (m = .resolved)
    | none => .unknown
  else Brace.classify c.char false

/-- A cell that is neither a backslash nor a brace is plain. -/
theorem Buffer.Cell.token_plain {c : Cell} (h₁ : c.char ≠ ('\\' : CodePoint))
    (h₂ : c.char ≠ ('{' : CodePoint)) (h₃ : c.char ≠ ('}' : CodePoint)) : c.token = .plain := by
  simp [token, Brace.classify, h₁, h₂, h₃]

theorem Buffer.Cell.token_opening {c : Cell} (h : c.char = ('{' : CodePoint)) :
    c.token = .opening := by
  simp [token, Brace.classify, h]

theorem Buffer.Cell.token_closing {c : Cell} (h : c.char = ('}' : CodePoint)) :
    c.token = .closing := by
  simp [token, Brace.classify, h]

theorem Buffer.Cell.char_of_token_closing {c : Cell} (h : c.token = .closing) :
    c.char = ('}' : CodePoint) := by
  unfold token at h
  split at h
  · rename_i hc
    split at h
    · rw [Brace.classify, if_pos hc] at h
      split at h <;> cases h
    · cases h
  · rename_i hc
    rw [Brace.classify, if_neg hc] at h
    split at h
    · cases h
    · split at h
      · assumption
      · cases h

/-- An active backslash is not of data. -/
theorem Buffer.Cell.of_token_escape {c : Cell} (h : c.token = .escape) :
    c.char = ('\\' : CodePoint) ∧ c.mark.isSome ∧ c.mark ≠ some .resolved := by
  unfold token at h
  split at h
  · rename_i hc
    split at h
    · rename_i m hm
      rw [Brace.classify, if_pos hc] at h
      split at h
      · cases h
      · rename_i hne
        refine ⟨hc, by rw [hm]; rfl, ?_⟩
        rw [hm]
        simpa using hne
    · cases h
  · rename_i hc
    rw [Brace.classify, if_neg hc] at h
    split at h
    · cases h
    · split at h <;> cases h

/-- The backslash that guards a brace of data. -/
def guardCell : Cell := ⟨⟨'\\', none⟩, some .guarding⟩

/-! ## 2. One brace -/

/-- The state of a sweep: how many placeholders it has filled with data, the cells passed, the last
    one first, and the cells that are left. -/
structure Front where
  filled : Nat
  done : List Cell
  rest : List Cell

namespace Front

/-- All cells. -/
def cells (f : Front) : List Cell := f.done.reverse ++ f.rest

/-- The buffer in the middle of a sweep. -/
def buffer (f : Front) (spare : List Mark) : Buffer := .ofCells f.cells spare

end Front

/-- Puts a filling in the place of a placeholder behind which `after` is left. -/
def Filling.put (filling : Filling) (filled : Nat) (done after : List Cell) : Front :=
  match filling with
  | .data value => ⟨filled + 1, (Cell.ofText .resolved value).reverse ++ done, after⟩
  | .template cells => ⟨filled, done, cells ++ after⟩

/-- Resolves the live brace `c`, behind which `rest` is left. -/
def resolveBrace (phase : Phase) (filler : Filler) (filled : Nat) (done : List Cell) (c : Cell)
    (rest : List Cell) : List Happening × Except Error Front :=
  match c.mark with
  | none => ([], .error .listIndex)
  | some .trusted =>
    match Brace.scan Cell.token 0 false rest with
    | .unknown => ([], .error .listIndex)
    | .unterminated => ([], .error (.unterminated (Cell.text (c :: rest))))
    | .closed interior after =>
      match filler.fill filled c interior with
      | (trace, .error e) => (trace, .error e)
      | (trace, .ok filling) => (trace, .ok (filling.put filled done after))
  | some _ => ([.blocked phase done.length], .ok ⟨filled, c :: guardCell :: done, rest⟩)

/-- **A brace that is resolved is guarded, if it is of data, or its placeholder is filled.** -/
theorem resolveBrace_cases {phase : Phase} {filler : Filler} {filled : Nat}
    {done rest : List Cell} {c : Cell} {trace : List Happening} {f : Front}
    (h : resolveBrace phase filler filled done c rest = (trace, .ok f)) :
    (∃ m, c.mark = some m ∧ m ≠ .trusted ∧ trace = [.blocked phase done.length] ∧
      f = ⟨filled, c :: guardCell :: done, rest⟩) ∨
    (c.mark = some .trusted ∧ ∃ interior after filling,
      Brace.scan Cell.token 0 false rest = .closed interior after ∧
      filler.fill filled c interior = (trace, .ok filling) ∧
      f = filling.put filled done after) := by
  unfold resolveBrace at h
  split at h
  · cases h
  · rename_i hmark
    split at h
    · cases h
    · cases h
    · rename_i interior after hscan
      split at h
      · cases h
      · rename_i trace' filling hfill
        cases h
        exact .inr ⟨hmark, interior, after, filling, hscan, hfill, rfl⟩
  · rename_i m hm hmark
    cases h
    exact .inl ⟨m, hmark, hm, rfl, rfl⟩

/-- **A step reports** that a brace gets a guard, or what the filler reports of a placeholder of the
    template. -/
theorem resolveBrace_reports {P : Happening → Prop} {phase : Phase} {filler : Filler} {filled : Nat}
    {done : List Cell} {c : Cell} (hblocked : P (.blocked phase done.length))
    (hfill : c.mark = some .trusted → ∀ interior : List Cell,
      ∀ e ∈ (filler.fill filled c interior).1, P e) (rest : List Cell) :
    ∀ e ∈ (resolveBrace phase filler filled done c rest).1, P e := by
  unfold resolveBrace
  split
  · exact fun _ he => absurd he List.not_mem_nil
  · rename_i hmark
    split
    · exact fun _ he => absurd he List.not_mem_nil
    · exact fun _ he => absurd he List.not_mem_nil
    · rename_i interior after _
      have hreports := hfill hmark interior
      split
      all_goals
        rename_i hf
        rwa [hf] at hreports
  · exact List.forall_mem_singleton.mpr hblocked

section Trusted

variable (phase : Phase) {filler : Filler} {filled : Nat} (done : List Cell)
  {rest interior after : List Cell} {c : Cell} {trace : List Happening}

/-- A brace of the template is resolved by what fills its placeholder. -/
theorem resolveBrace_fill (hc : c.mark = some .trusted)
    (hs : Brace.scan Cell.token 0 false rest = .closed interior after) {filling : Filling}
    (hf : filler.fill filled c interior = (trace, .ok filling)) :
    resolveBrace phase filler filled done c rest = (trace, .ok (filling.put filled done after)) := by
  simp only [resolveBrace, hc, hs, hf]

/-- What cannot be filled cannot be resolved. -/
theorem resolveBrace_refused (hc : c.mark = some .trusted)
    (hs : Brace.scan Cell.token 0 false rest = .closed interior after) {e : Error}
    (hf : filler.fill filled c interior = (trace, .error e)) :
    resolveBrace phase filler filled done c rest = (trace, .error e) := by
  simp only [resolveBrace, hc, hs, hf]

/-- Nor can what is not closed. -/
theorem resolveBrace_unterminated (hc : c.mark = some .trusted)
    (hs : Brace.scan Cell.token 0 false rest = .unterminated) :
    resolveBrace phase filler filled done c rest
      = ([], .error (.unterminated (Cell.text (c :: rest)))) := by
  simp only [resolveBrace, hc, hs]

end Trusted

/-- **What is left to read gets shorter.** -/
theorem resolveBrace_length {phase : Phase} {filler : Filler} {filled : Nat} {done rest : List Cell}
    {c : Cell} {trace : List Happening} {f : Front}
    (h : resolveBrace phase filler filled done c rest = (trace, .ok f)) :
    f.rest.length < (c :: rest).length := by
  obtain ⟨m, _, _, _, rfl⟩ | ⟨_, interior, after, filling, hscan, hfill, rfl⟩ := resolveBrace_cases h
  · exact Nat.lt_succ_self _
  · have hlen := Brace.scan_closed_length hscan
    cases filling with
    | data value =>
      show after.length < rest.length + 1
      omega
    | template cells =>
      have hfits := filler.fits hfill
      show (cells ++ after).length < rest.length + 1
      rw [List.length_append]
      omega

/-! ## 3. A whole sweep -/

/-- What is reported of the buffer after a brace has been resolved. -/
def Phase.report (phase : Phase) (b : Buffer) : List Happening :=
  match phase with
  | .fields => [.edited b]
  | .commands => [.edited b, .surveyed b]

/-- Sweeps over the cells that are left. The buffer has the marks `spare` past its end. -/
def sweep (phase : Phase) (filler : Filler) (spare : List Mark) (filled : Nat)
    (done rest : List Cell) : Progress (List Cell) :=
  match rest with
  | [] => ⟨[], done.reverse, none⟩
  | c :: rest =>
    match phase.isLive done.head? c rest.head? with
    | .error e => ⟨[], done.reverse ++ c :: rest, some e⟩
    | .ok false => sweep phase filler spare filled (c :: done) rest
    | .ok true =>
      match h : resolveBrace phase filler filled done c rest with
      | (trace, .error e) =>
        ⟨.met phase done.length :: trace, done.reverse ++ c :: rest, some e⟩
      | (trace, .ok f) =>
        have := resolveBrace_length h
        (sweep phase filler spare f.filled f.done f.rest).after
          (.met phase done.length :: trace ++ phase.report (f.buffer spare))
termination_by rest.length
decreasing_by all_goals (simp only [List.length_cons] at *; omega)

section Steps

variable {phase : Phase} {filler : Filler} {spare : List Mark} {filled : Nat} {done rest : List Cell}
  {c : Cell}

@[simp] theorem sweep_nil : sweep phase filler spare filled done [] = ⟨[], done.reverse, none⟩ := by
  rw [sweep]

/-- A cell that is no live brace is passed. -/
theorem sweep_pass (h : phase.isLive done.head? c rest.head? = .ok false) :
    sweep phase filler spare filled done (c :: rest)
      = sweep phase filler spare filled (c :: done) rest := by
  rw [sweep, h]

/-- A live brace is resolved. -/
theorem sweep_resolve (h : phase.isLive done.head? c rest.head? = .ok true)
    {trace : List Happening} {f : Front}
    (hr : resolveBrace phase filler filled done c rest = (trace, .ok f)) :
    sweep phase filler spare filled done (c :: rest)
      = (sweep phase filler spare f.filled f.done f.rest).after
          (.met phase done.length :: trace ++ phase.report (f.buffer spare)) := by
  rw [sweep, h]
  simp only
  split
  · rename_i hr'
    rw [hr] at hr'
    cases hr'
  · rename_i hr'
    rw [hr] at hr'
    cases hr'
    rfl

/-- A live brace that cannot be resolved ends the sweep. -/
theorem sweep_fail (h : phase.isLive done.head? c rest.head? = .ok true)
    {trace : List Happening} {e : Error}
    (hr : resolveBrace phase filler filled done c rest = (trace, .error e)) :
    sweep phase filler spare filled done (c :: rest)
      = ⟨.met phase done.length :: trace, done.reverse ++ c :: rest, some e⟩ := by
  rw [sweep, h]
  simp only
  split
  · rename_i hr'
    rw [hr] at hr'
    cases hr'
    rfl
  · rename_i hr'
    rw [hr] at hr'
    cases hr'

/-- Cells without a brace are passed. -/
theorem sweep_passAll : ∀ {cells : List Cell}, (∀ d ∈ cells, d.char ≠ ('{' : CodePoint)) →
    ∀ done : List Cell, sweep phase filler spare filled done (cells ++ rest)
      = sweep phase filler spare filled (cells.reverse ++ done) rest
  | [], _, _ => rfl
  | d :: cells, h, done => by
    rw [List.cons_append, sweep_pass (Phase.isLive_of_ne (h d List.mem_cons_self)),
      sweep_passAll (fun e he => h e (List.mem_cons_of_mem d he)) (d :: done), List.reverse_cons,
      List.append_assoc]
    rfl

/-- Where only cells without a brace are left, a sweep does nothing. -/
theorem sweep_noBrace (phase : Phase) (filler : Filler) (spare : List Mark) (filled : Nat)
    (done : List Cell) {cells : List Cell} (h : ∀ d ∈ cells, d.char ≠ ('{' : CodePoint)) :
    sweep phase filler spare filled done cells = ⟨[], done.reverse ++ cells, none⟩ := by
  rw [← List.append_nil cells, sweep_passAll h, sweep_nil, List.reverse_append, List.reverse_reverse,
    List.append_nil]

end Steps

end GraphFeed
