import GraphFeed.Proofs.Traced

/-!
# Every state of a buffer under expansion

An expansion edits its buffer in four ways (`Edit`): a brace of data gets a guard, the value of a field
takes the place of its placeholder, or its fallback does, and the output of a command takes the place
of that one. Each edit is a splice of text and marks.

* `edit_guard`, `edit_field`, `edit_command`: what a step does to the cells is such an edit;
* `Filler.Edits.reaches_sweep`, `reaches_settle`: so a sweep and a phase lead from one sound state to
  the next, and one that fails ends with the last of them.

A fallback is put back as text of the template. It is cut out of cells that are all of the template,
because the phase of fields fills placeholders before any data is to its right (`Unfilled`).
-/

namespace GraphFeed

open Buffer (Cell)

/-! ## 1. Edits -/

/-- The text of a placeholder. -/
def braced (interior : Text) : Text := ('{' : CodePoint) :: interior ++ [('}' : CodePoint)]

/-- An edit: what is reported of it, the state before and the one behind it. -/
inductive Edit (s : Splitter) (record : Record) (runner : Runner) :
    List Happening → Traced → Traced → Prop
  /-- A live brace of data gets a guard. -/
  | guard {x : Traced} {index : Nat} (phase : Phase)
      (brace : x.buffer.text[index]? = some ('{' : CodePoint))
      (data : x.buffer.marks[index]? = some .resolved) :
      Edit s record runner [.met phase index, .blocked phase index] x (x.guard index)
  /-- The value of a field takes the place of its placeholder. -/
  | value {x : Traced} {start : Nat} {interior : Text} {p : Placeholder} {value : Text}
      (stands : braced interior <+: x.buffer.text.drop start)
      (reads : Placeholder.ofInterior interior = .ok p)
      (yields : p.value s record = .ok (some value)) :
      Edit s record runner [.met .fields start, .reading interior.strip, .understood p] x
        (x.fill start (start + (braced interior).length) value)
  /-- Where there is no value, the fallback takes its place; it is a part of the placeholder. -/
  | fallback {x : Traced} {start first : Nat} {interior : Text} {p : Placeholder}
      (stands : braced interior <+: x.buffer.text.drop start)
      (reads : Placeholder.ofInterior interior = .ok p)
      (yields : p.value s record = .ok none)
      (part : p.fallback <+: x.buffer.text.drop first)
      (inside : start < first ∧ first + p.fallback.length < start + (braced interior).length) :
      Edit s record runner [.met .fields start, .reading interior.strip, .understood p] x
        (x.fallBack start (start + (braced interior).length) first p.fallback)
  /-- The output of a command takes the place of its placeholder. -/
  | output {x : Traced} {start calls : Nat} {interior : List Cell} {o : Output} (brace : Cell)
      (stands : braced (Cell.text interior) <+: x.buffer.text.drop start)
      (answers : runner calls (commandOf interior) = .ok o) :
      Edit s record runner
        [.met .commands start, .running brace interior (commandOf interior), .answered o] x
        (x.fill start (start + (braced (Cell.text interior)).length) o.inlined)

/-- The happening shows the buffer behind an edit. -/
def Happening.isEdited : Happening → Bool
  | .edited _ => true
  | _ => false

/-- The happenings report edits one after the other, each with the buffer behind it, and no other
    edit; the states are those behind the edits. -/
inductive Edited (s : Splitter) (record : Record) (runner : Runner) :
    List Happening → Traced → List Traced → Prop
  | nil (x : Traced) : Edited s record runner [] x []
  | other {x : Traced} {states : List Traced} {happening : Happening} {later : List Happening}
      (h : happening.isEdited = false) (rest : Edited s record runner later x states) :
      Edited s record runner (happening :: later) x states
  | edit {x y : Traced} {states : List Traced} {trace later : List Happening} {b : Buffer}
      (h : Edit s record runner trace x y) (text : b.text = y.buffer.text)
      (marks : b.marks = y.buffer.marks) (rest : Edited s record runner later y states) :
      Edited s record runner (trace ++ .edited b :: later) x (y :: states)

namespace Edited

variable {s : Splitter} {record : Record} {runner : Runner} {x : Traced} {states : List Traced}

/-- What is no edit may be reported before and behind. -/
theorem append {a b : List Happening} {more : List Traced} (h : Edited s record runner a x states)
    (hb : Edited s record runner b (states.getLastD x) more) :
    Edited s record runner (a ++ b) x (states ++ more) := by
  induction h with
  | nil x => exact hb
  | other hh _ ih => exact .other hh (ih hb)
  | @edit x y states trace later b' he htext hmarks _ ih =>
    rw [List.append_assoc, List.cons_append, List.cons_append]
    refine .edit he htext hmarks (ih ?_)
    rwa [List.getLastD_cons] at hb

theorem of_others {trace : List Happening} (h : ∀ e ∈ trace, e.isEdited = false) (x : Traced) :
    Edited s record runner trace x [] := by
  induction trace with
  | nil => exact .nil x
  | cons e trace ih =>
    obtain ⟨he, hrest⟩ := List.forall_mem_cons.mp h
    exact .other he (ih hrest)

end Edited

variable {t : Text} {x : Traced} {cells done rest : List Cell} {c : Cell}

/-! ## 2. Steps -/

/-- **A guard is put in by an edit.** -/
theorem edit_guard (s : Splitter) (record : Record) (runner : Runner) {phase : Phase}
    (hx : x.Holds (done.reverse ++ c :: rest)) (hf : Faithful t (done.reverse ++ c :: rest))
    (hl : phase.isLive done.head? c rest.head? = .ok true) (hm : c.mark ≠ some .trusted) :
    ∃ y, Edit s record runner [.met phase done.length, .blocked phase done.length] x y ∧
      y.Holds ((c :: guardCell :: done).reverse ++ rest) ∧
      Faithful t ((c :: guardCell :: done).reverse ++ rest) := by
  obtain ⟨hchar, hlive, _⟩ := Phase.isLive_eq_true hl
  have hcells : (c :: guardCell :: done).reverse ++ rest = done.reverse ++ guardCell :: c :: rest := by
    simp
  have hc : (done.reverse ++ c :: rest)[done.length]? = some c := by
    rw [List.getElem?_append_right (by simp)]
    simp
  obtain ⟨hbrace, hdata⟩ := hx.getElem? hc (hf.resolved hchar hm)
  rw [hchar] at hbrace
  have hy := hx.guard
  rw [List.length_reverse, ← hcells] at hy
  exact ⟨_, .guard phase hbrace hdata, hy, hcells ▸ hf.guard hchar hlive hm⟩

section Placeholders

variable {interior after : List Cell} {close : Cell} {trace : List Happening} {filling : Filling}
  {filled : Nat}

/-- A placeholder is a span of the cells. -/
theorem cells_placeholder : done.reverse ++ c :: (interior ++ close :: after)
    = done.reverse ++ c :: (interior ++ [close]) ++ after := by simp

theorem length_braced (interior : List Cell) : (braced (Cell.text interior)).length
    = (c :: (interior ++ [close])).length := by simp [braced]

/-- A placeholder is a span of the text. -/
theorem Traced.Holds.stands (hx : x.Holds (done.reverse ++ c :: (interior ++ close :: after)))
    (hc : c.char = ('{' : CodePoint)) (hclose : close.char = ('}' : CodePoint)) :
    braced (Cell.text interior) <+: x.buffer.text.drop done.length := by
  have hdrop : x.buffer.text.drop done.length = Cell.text (c :: (interior ++ close :: after)) := by
    rw [hx.text, Cell.text_append]
    exact List.drop_left' (by simp)
  refine ⟨Cell.text after, ?_⟩
  rw [hdrop]
  simp [braced, hc, hclose]

/-- Data takes the place of a placeholder. -/
theorem data_put (hx : x.Holds (done.reverse ++ c :: (interior ++ close :: after)))
    (hf : Faithful t (done.reverse ++ c :: (interior ++ close :: after)))
    (hm : c.mark = some .trusted) (filled : Nat) (value : Text) :
    (x.fill done.length (done.length + (braced (Cell.text interior)).length) value).Holds
        ((Filling.data value).put filled done after).cells ∧
      Faithful t ((Filling.data value).put filled done after).cells := by
  have hcells : ((Filling.data value).put filled done after).cells
      = done.reverse ++ Cell.ofText .resolved value ++ after := by
    rw [Filling.put, Front.cells, List.reverse_append, List.reverse_reverse]
  rw [cells_placeholder] at hx hf
  rw [hcells]
  refine ⟨?_, hf.replace hm (fun d hd => ?_) ?_⟩
  · have hy := hx.fill value
    rwa [List.length_reverse, ← length_braced] at hy
  · refine ⟨(fair_data t).ofText value d hd, ?_⟩
    rw [Cell.mark_of_mem_ofText hd]
    decide
  · rw [places_ofText]
    exact List.nil_sublist _

/-- The fallback takes the place of a placeholder of the template. -/
theorem fallback_put {p : Placeholder}
    (hx : x.Holds (done.reverse ++ c :: (interior ++ close :: after)))
    (hf : Faithful t (done.reverse ++ c :: (interior ++ close :: after)))
    (hm : c.mark = some .trusted) (ht : ∀ d ∈ interior, d.mark = some .trusted)
    (hp : Placeholder.ofInterior (Cell.text interior) = .ok p) (filled : Nat) :
    ∃ first, p.fallback <+: x.buffer.text.drop first ∧
      (done.length < first ∧
        first + p.fallback.length < done.length + (braced (Cell.text interior)).length) ∧
      (x.fallBack done.length (done.length + (braced (Cell.text interior)).length) first
        p.fallback).Holds ((Filling.template (p.fallbackCells interior)).put filled done after).cells ∧
      Faithful t ((Filling.template (p.fallbackCells interior)).put filled done after).cells := by
  obtain ⟨lead, tail, hsplit⟩ := Placeholder.fallback_part hp ht
  have htext := Placeholder.text_fallbackCells hp
  have hmarks : ∀ d ∈ p.fallbackCells interior, d.mark = some .trusted := fun d hd =>
    Placeholder.mark_of_mem_fallbackCells hd
  have hcells : ((Filling.template (p.fallbackCells interior)).put filled done after).cells
      = done.reverse ++ p.fallbackCells interior ++ after := by
    rw [Filling.put, Front.cells, List.append_assoc]
  have hspan : c :: (interior ++ [close])
      = (c :: lead) ++ p.fallbackCells interior ++ (tail ++ [close]) := by
    conv => lhs; rw [hsplit]
    simp
  have hlength : (braced (Cell.text interior)).length
      = ((c :: lead) ++ p.fallbackCells interior ++ (tail ++ [close])).length := by
    rw [length_braced, hspan]
  rw [cells_placeholder, hspan] at hx hf
  rw [hcells, hlength]
  refine ⟨done.length + (c :: lead).length, ?_, ⟨?_, ?_⟩, ?_, hf.replace hm (fun d hd => ?_) ?_⟩
  · have hpart := Traced.Holds.drop_take_span hx.text
    rw [List.length_reverse, ← Cell.length_text, ← Cell.text, htext] at hpart
    exact List.prefix_iff_eq_take.mpr hpart.symm
  · rw [List.length_cons]
    omega
  · rw [← htext, Cell.length_text]
    simp only [List.length_append, List.length_cons]
    omega
  · have hy := hx.fallBack hmarks
    rwa [List.length_reverse, htext] at hy
  · refine ⟨hf.fair d (by simp [hd]), ?_⟩
    rw [hmarks d hd]
    decide
  · show List.Sublist _ (places ((c :: lead) ++ p.fallbackCells interior ++ (tail ++ [close])))
    rw [places_append, places_append]
    exact (List.sublist_append_right _ _).trans (List.sublist_append_left _ _)

/-- **The value of a field, or its fallback, is put in by an edit.** -/
theorem edit_field {s : Splitter} {record : Record} (runner : Runner)
    (hx : x.Holds (done.reverse ++ c :: (interior ++ close :: after)))
    (hf : Faithful t (done.reverse ++ c :: (interior ++ close :: after)))
    (hm : c.mark = some .trusted) (hc : c.char = ('{' : CodePoint))
    (hclose : close.char = ('}' : CodePoint)) (ht : ∀ d ∈ interior, d.mark = some .trusted)
    (hfill : (fieldFiller s record).fill filled c interior = (trace, .ok filling)) :
    ∃ y, Edit s record runner (.met .fields done.length :: trace) x y ∧
      y.Holds (filling.put filled done after).cells ∧
      Faithful t (filling.put filled done after).cells := by
  obtain ⟨p, hp, rfl, ⟨value, hv, rfl⟩ | ⟨hv, rfl⟩⟩ := fieldFiller_cases hfill
  · obtain ⟨hy, hkept⟩ := data_put hx hf hm filled value
    exact ⟨_, .value (hx.stands hc hclose) hp hv, hy, hkept⟩
  · obtain ⟨first, hpart, hinside, hy, hkept⟩ := fallback_put hx hf hm ht hp filled
    exact ⟨_, .fallback (hx.stands hc hclose) hp hv hpart hinside, hy, hkept⟩

/-- **The output of a command is put in by an edit.** -/
theorem edit_command (s : Splitter) (record : Record) {runner : Runner}
    (hx : x.Holds (done.reverse ++ c :: (interior ++ close :: after)))
    (hf : Faithful t (done.reverse ++ c :: (interior ++ close :: after)))
    (hm : c.mark = some .trusted) (hc : c.char = ('{' : CodePoint))
    (hclose : close.char = ('}' : CodePoint))
    (hfill : (commandFiller runner).fill filled c interior = (trace, .ok filling)) :
    ∃ y, Edit s record runner (.met .commands done.length :: trace) x y ∧
      y.Holds (filling.put filled done after).cells ∧
      Faithful t (filling.put filled done after).cells := by
  obtain ⟨output, hanswer, rfl, rfl⟩ := commandFiller_cases hfill
  obtain ⟨hy, hkept⟩ := data_put hx hf hm filled output.inlined
  exact ⟨_, .output c (hx.stands hc hclose) hanswer, hy, hkept⟩

end Placeholders

/-! ## 3. Runs of edits -/

/-- Happenings report edits that lead from a state to one with these cells, and every state on the way
    is sound. -/
def Reaches (s : Splitter) (record : Record) (runner : Runner) (t : Text) (trace : List Happening)
    (x : Traced) (cells : List Cell) : Prop :=
  Faithful t cells ∧ ∃ states, Edited s record runner trace x states ∧ (∀ y ∈ states, y.Sound t) ∧
    (states.getLastD x).Holds cells

namespace Reaches

variable {s : Splitter} {record : Record} {runner : Runner} {trace : List Happening}

/-- Where no edit is reported, there is none. -/
theorem of_others (hx : x.Holds cells) (hf : Faithful t cells)
    (h : ∀ e ∈ trace, e.isEdited = false) : Reaches s record runner t trace x cells :=
  ⟨hf, [], .of_others h x, fun _ hy => absurd hy List.not_mem_nil, hx⟩

/-- One run goes on where another one ends. -/
theorem append {later : List Happening} {cells' : List Cell}
    (h : Reaches s record runner t trace x cells)
    (hlater : ∀ y : Traced, y.Holds cells → Reaches s record runner t later y cells') :
    Reaches s record runner t (trace ++ later) x cells' := by
  obtain ⟨_, states, hstates, hsound, hy⟩ := h
  obtain ⟨hf, more, hmore, hsound', hz⟩ := hlater _ hy
  refine ⟨hf, states ++ more, hstates.append hmore, fun z hz => ?_, ?_⟩
  · exact (List.mem_append.mp hz).elim (hsound z) (hsound' z)
  · rwa [List.getLastD_eq_getLast?, List.getLast?_append, Option.getD_or,
      ← List.getLastD_eq_getLast?, ← List.getLastD_eq_getLast?]

/-- An edit, and what is reported of the buffer behind it. -/
theorem of_edit {y : Traced} (h : Edit s record runner trace x y) (hy : y.Holds cells)
    (hf : Faithful t cells) (phase : Phase) :
    Reaches s record runner t (trace ++ phase.report (.ofCells cells [])) x cells := by
  obtain ⟨htext, hmarks⟩ := hy.ofCells
  have hedited : ∀ later : List Happening, (∀ e ∈ later, e.isEdited = false) →
      Reaches s record runner t (trace ++ .edited (.ofCells cells []) :: later) x cells :=
    fun later hl => ⟨hf, [y], .edit h htext hmarks (.of_others hl y),
      fun z hz => List.mem_singleton.mp hz ▸ hf.sound hy, hy⟩
  cases phase with
  | fields => exact hedited [] fun _ he => absurd he List.not_mem_nil
  | commands =>
    refine hedited [.surveyed (.ofCells cells [])] fun e he => ?_
    rw [List.mem_singleton.mp he]
    rfl

end Reaches

/-- What a filler does in a sweep is to edit, as long as `I` holds of the cells passed and those that
    are left; a sweep keeps it. -/
structure Filler.Edits (filler : Filler) (phase : Phase) (s : Splitter) (record : Record)
    (runner : Runner) (t : Text) (I : List Cell → List Cell → Prop) : Prop where
  quiet (filled : Nat) (brace : Cell) (interior : List Cell) :
    ∀ e ∈ (filler.fill filled brace interior).1, e.isEdited = false
  pass {done rest : List Cell} {c : Cell} : I done (c :: rest) → I (c :: done) rest
  guard {done rest : List Cell} {c : Cell} : I done (c :: rest) → I (c :: guardCell :: done) rest
  put {filled : Nat} {done interior after : List Cell} {c close : Cell} {trace : List Happening}
    {filling : Filling} {x : Traced} : I done (c :: (interior ++ close :: after)) →
      x.Holds (done.reverse ++ c :: (interior ++ close :: after)) →
      Faithful t (done.reverse ++ c :: (interior ++ close :: after)) →
      phase.isLive done.head? c (interior ++ close :: after).head? = .ok true →
      close.char = ('}' : CodePoint) → c.mark = some .trusted →
      filler.fill filled c interior = (trace, .ok filling) →
      I (filling.put filled done after).done (filling.put filled done after).rest ∧
        ∃ y, Edit s record runner (.met phase done.length :: trace) x y ∧
          y.Holds (filling.put filled done after).cells ∧
          Faithful t (filling.put filled done after).cells

variable {s : Splitter} {record : Record} {runner : Runner} {phase : Phase} {filler : Filler}
  {I : List Cell → List Cell → Prop}

/-- No step reports an edit by itself. -/
theorem Filler.Edits.quiet_step (h : filler.Edits phase s record runner t I) {filled : Nat}
    {trace : List Happening} {result : Except Error Front}
    (hr : resolveBrace phase filler filled done c rest = (trace, result)) :
    ∀ e ∈ trace, e.isEdited = false := by
  have hquiet : ∀ e ∈ (resolveBrace phase filler filled done c rest).1, e.isEdited = false :=
    resolveBrace_reports (by rfl) (fun _ => h.quiet filled c) rest
  rwa [hr] at hquiet

/-- **A step is an edit.** -/
theorem Filler.Edits.step (h : filler.Edits phase s record runner t I) {filled : Nat}
    {trace : List Happening} {f : Front} (hx : x.Holds (done.reverse ++ c :: rest))
    (hf : Faithful t (done.reverse ++ c :: rest)) (hi : I done (c :: rest))
    (hl : phase.isLive done.head? c rest.head? = .ok true)
    (hr : resolveBrace phase filler filled done c rest = (trace, .ok f)) :
    I f.done f.rest ∧ ∃ y, Edit s record runner (.met phase done.length :: trace) x y ∧
      y.Holds f.cells ∧ Faithful t f.cells := by
  obtain ⟨m, hm, hne, rfl, rfl⟩ | ⟨hm, interior, after, filling, hscan, hfill, rfl⟩ :=
    resolveBrace_cases hr
  · refine ⟨h.guard hi, edit_guard s record runner hx hf hl ?_⟩
    rw [hm]
    exact fun he => hne (Option.some.inj he)
  · obtain ⟨close, hclose, rfl⟩ := Brace.scan_closed _ _ _ _ _ _ hscan
    exact h.put hi hx hf hl (Cell.char_of_token_closing hclose) hm hfill

/-- **A sweep is a run of edits**, also when a failure ends it. -/
theorem Filler.Edits.reaches_sweep (h : filler.Edits phase s record runner t I) (filled : Nat)
    (hx : x.Holds (done.reverse ++ rest)) (hf : Faithful t (done.reverse ++ rest)) (hi : I done rest) :
    Reaches s record runner t (sweep phase filler [] filled done rest).trace x
      (sweep phase filler [] filled done rest).state := by
  fun_induction sweep phase filler [] filled done rest generalizing x with
  | case1 filled done =>
    rw [List.append_nil] at hx hf
    exact .of_others hx hf fun _ he => absurd he List.not_mem_nil
  | case2 => exact .of_others hx hf fun _ he => absurd he List.not_mem_nil
  | case3 filled done c rest hl ih =>
    have hcells : (c :: done).reverse ++ rest = done.reverse ++ c :: rest := by simp
    rw [hcells] at ih
    exact ih hx hf (h.pass hi)
  | case4 filled done c rest hl trace e hr =>
    exact .of_others hx hf (List.forall_mem_cons.mpr ⟨rfl, h.quiet_step hr⟩)
  | case5 filled done c rest hl trace f hr _ ih =>
    obtain ⟨hi, y, hedit, hy, hkept⟩ := h.step hx hf hi hl hr
    exact (Reaches.of_edit hedit hy hkept phase).append fun z hz => ih hz hkept hi

theorem Filler.Edits.reaches_sweepAll (h : filler.Edits phase s record runner t I) (hx : x.Holds cells)
    (hf : Faithful t cells) (hi : I [] cells) :
    Reaches s record runner t (sweep phase filler [] 0 [] cells).trace x
      (sweep phase filler [] 0 [] cells).state := h.reaches_sweep 0 hx hf hi

/-! ## 4. Both phases -/

/-- No placeholder is filled behind data: all that is left is of the template, or no live brace of it
    is left. -/
def Unfilled (done rest : List Cell) : Prop :=
  (∀ d ∈ rest, d.mark = some .trusted) ∨
    Phase.fields.hasLive Phase.ofTemplate done.head? rest = false

/-- **What is done to fields is to edit.** -/
theorem edits_fieldFiller (s : Splitter) (record : Record) (runner : Runner) (t : Text) :
    (fieldFiller s record).Edits .fields s record runner t Unfilled where
  quiet := fieldFiller_reports (fun _ => rfl) (fun _ => rfl) s record
  pass hi := hi.imp (fun ht d hd => ht d (List.mem_cons_of_mem _ hd))
    fun hcalm => (Bool.or_eq_false_iff.mp hcalm).2
  guard hi := hi.imp (fun ht d hd => ht d (List.mem_cons_of_mem _ hd))
    fun hcalm => (Bool.or_eq_false_iff.mp hcalm).2
  put {filled done interior after c close trace filling x} hi hx hf hl hclose hm hfill := by
    obtain ⟨hc, _⟩ := Phase.isLive_eq_true hl
    -- where a live brace of the template is met, all that is left is of the template
    have ht : ∀ d ∈ c :: (interior ++ close :: after), d.mark = some .trusted :=
      hi.resolve_right fun hcalm => Phase.mark_ne_trusted hcalm hl hm
    have hinterior : ∀ d ∈ interior, d.mark = some .trusted := fun d hd => ht d (by simp [hd])
    have hafter : ∀ d ∈ after, d.mark = some .trusted := fun d hd => ht d (by simp [hd])
    refine ⟨.inl ?_, edit_field runner hx hf hm hc hclose hinterior hfill⟩
    cases filling with
    | data value => exact hafter
    | template cells =>
      obtain ⟨p, _, _, rfl⟩ := fieldFiller_template hfill
      intro d hd
      exact (List.mem_append.mp hd).elim Placeholder.mark_of_mem_fallbackCells (hafter d)

/-- **What is done to commands is to edit.** -/
theorem edits_commandFiller (s : Splitter) (record : Record) (runner : Runner) (t : Text) :
    (commandFiller runner).Edits .commands s record runner t fun _ _ => True where
  quiet filled _ _ := commandFiller_reports (by rfl) (fun _ => rfl) runner filled
  pass _ := trivial
  guard _ := trivial
  put _ hx hf hl hclose hm hfill :=
    ⟨trivial, edit_command s record hx hf hm (Phase.isLive_eq_true hl).1 hclose hfill⟩

/-- **The phase of fields is a run of edits.** -/
theorem reaches_settle (s : Splitter) (record : Record) (runner : Runner) (cells : List Cell) :
    ∀ {x : Traced}, x.Holds cells → Faithful t cells → Unfilled [] cells →
      Reaches s record runner t (settle (fieldFiller s record) [] cells).trace x
        (settle (fieldFiller s record) [] cells).state := by
  fun_induction settle (fieldFiller s record) [] cells with
  | case1 cells p hmet _ =>
    rename_i ih
    intro x hx hf hi
    have hsweep : Reaches s record runner t p.trace x p.state :=
      (edits_fieldFiller s record runner t).reaches_sweepAll hx hf hi
    have hcalm := hasLive_sweep_template (fieldFiller s record) [] 0 [] cells trivial hmet.1
    have hsurvey : ∀ e ∈ p.surveying [], e.isEdited = false := by
      intro e he
      unfold Progress.surveying at he
      split at he
      · rw [List.mem_singleton.mp he]
        rfl
      · cases he
    -- the sweeps that follow meet no brace of the template
    refine Reaches.append (hsweep.append fun y hy => .of_others hy hsweep.1 hsurvey) fun y hy => ?_
    exact ih hy hsweep.1 (.inr hcalm)
  | case2 => exact fun hx hf hi => (edits_fieldFiller s record runner t).reaches_sweepAll hx hf hi

/-- **An expansion edits, and every state of its buffer is sound.** Whatever the template, the record
    and the runner: what is reported of buffers in the course of an expansion, be it to the end or to
    the failure that ends it, are the states behind edits, one edit after the other, from the template
    on. In each of these states text and marks are of one length, every guard is a backslash directly
    in front of an opening brace of data, what is marked as of the template is a part of the template
    in its order, and every code point from a record or from a command is marked as data. The result
    is the text of the last state without its guards. -/
theorem edits_sound (s : Splitter) (runner : Runner) (template : Text) (record : Record) :
    ∃ states,
      Edited s record runner (expand s runner template record).trace (.ofTemplate template) states ∧
      (∀ x ∈ .ofTemplate template :: states, x.Sound template) ∧
      ∀ out, (expand s runner template record).result = .ok out →
        out = (states.getLastD (.ofTemplate template)).buffer.cleanup := by
  have hstart : (Traced.ofTemplate template).Sound template :=
    (faithful_ofTemplate template).sound (holds_ofTemplate template)
  have hfields := reaches_settle s record runner _ (holds_ofTemplate template)
    (faithful_ofTemplate template) (.inl (Cell.trusted_ofTemplate))
  rw [expand_eq]
  generalize settle (fieldFiller s record) [] (Cell.ofTemplate template) = p at hfields ⊢
  cases he : p.error with
  | some e =>
    obtain ⟨_, states, hstates, hsound, _⟩ := hfields
    simp only [he]
    exact ⟨states, hstates, List.forall_mem_cons.mpr ⟨hstart, hsound⟩, fun out ho => by cases ho⟩
  | none =>
    obtain ⟨hf, states, hstates, hsound, hlast⟩ := hfields.append fun y hy =>
      (edits_commandFiller s record runner template).reaches_sweepAll hy hfields.1 trivial
    have hstates' : ∀ x ∈ Traced.ofTemplate template :: states, x.Sound template :=
      List.forall_mem_cons.mpr ⟨hstart, hsound⟩
    simp only [he]
    cases hq : (sweep .commands (commandFiller runner) [] 0 [] p.state).error with
    | some e => exact ⟨states, hstates, hstates', fun out ho => by cases ho⟩
    | none =>
      refine ⟨states, hstates, hstates', fun out ho => ?_⟩
      obtain ⟨htext, hmarks⟩ := hlast.ofCells
      rw [← Except.ok.inj ho, ← Buffer.cleanup_ofCells (fun c hc => (hf.fair c hc).2) [],
        Buffer.cleanup, Buffer.cleanup, htext, hmarks]

end GraphFeed
