import GraphFeed.Proofs.Fallback
import GraphFeed.Proofs.Guarding

/-!
# How many braces an expansion meets

Text grows while it is expanded: values are long, guards are put in, fallbacks are read again, and the
phase of fields begins anew after every sweep. What does not grow is the number of braces that can
still be met.

* `meetings_sweep`: a sweep meets no more braces than are left to read, because each brace it meets is
  passed or taken out, and what is read again is a part of the placeholder it was taken from;
* `meetings_sweep_data`: a sweep that has no live brace of the template before it meets those of data
  only;
* `openings_sweep`: of data, a sweep leaves no more braces than there were and than are in the values
  it puts in.

The first sweep over fields is of the first kind, the second one of the second, and a third one meets
nothing. So the braces of the template and those of the values bound the phase of fields, and the
braces that the phase of commands begins with bound that one (`meetings_bounded`).
-/

namespace GraphFeed

open Buffer (Cell)

/-! ## 1. What is counted -/

/-- A live brace of this kind is met. -/
def Happening.isMeeting (phase : Phase) : Happening → Bool
  | .met kind _ => kind = phase
  | _ => false

/-- How many live braces of a kind are met. -/
def meetings (phase : Phase) (trace : List Happening) : Nat :=
  trace.countP (Happening.isMeeting phase)

/-- The value that is put in the place of a field placeholder which is understood, if it has one. -/
def Happening.value? (s : Splitter) (record : Record) : Happening → Option Text
  | .understood p =>
    match p.value s record with
    | .ok value => value
    | .error _ => none
  | _ => none

/-- How many opening braces are in a text. -/
def Text.openings (t : Text) : Nat := t.count ('{' : CodePoint)

/-- How many opening braces are in the values that are put in. -/
def openingsOfValues (s : Splitter) (record : Record) (trace : List Happening) : Nat :=
  Text.openings (trace.filterMap (Happening.value? s record)).flatten

/-- How many cells of a class hold opening braces. -/
def Buffer.Cell.openings (q : Cell → Bool) (cells : List Cell) : Nat :=
  cells.countP fun c => c.char = ('{' : CodePoint) && q c

/-- A class of cells: those that are not of the template. -/
def Phase.notOfTemplate : Cell → Bool := fun c => !Phase.ofTemplate c

@[simp] theorem meetings_append (phase : Phase) (a b : List Happening) :
    meetings phase (a ++ b) = meetings phase a + meetings phase b := List.countP_append

@[simp] theorem meetings_met (phase : Phase) (index : Nat) (trace : List Happening) :
    meetings phase (.met phase index :: trace) = meetings phase trace + 1 := by
  simp [meetings, Happening.isMeeting]

@[simp] theorem openingsOfValues_append (s : Splitter) (record : Record) (a b : List Happening) :
    openingsOfValues s record (a ++ b) = openingsOfValues s record a + openingsOfValues s record b := by
  rw [openingsOfValues, List.filterMap_append, List.flatten_append, Text.openings, List.count_append]
  rfl

variable {q : Cell → Bool} {c : Cell} {cells : List Cell}

@[simp] theorem Buffer.Cell.openings_append (a b : List Cell) :
    Cell.openings q (a ++ b) = Cell.openings q a + Cell.openings q b := List.countP_append

@[simp] theorem Buffer.Cell.openings_reverse : Cell.openings q cells.reverse = Cell.openings q cells :=
  List.countP_reverse

theorem Buffer.Cell.openings_cons :
    Cell.openings q (c :: cells) = Cell.openings q cells
      + if c.char = ('{' : CodePoint) ∧ q c = true then 1 else 0 := by
  simp [openings, List.countP_cons]

/-- An opening brace of the class counts. -/
theorem Buffer.Cell.openings_brace (hc : c.char = ('{' : CodePoint)) (hq : q c = true) :
    Cell.openings q (c :: cells) = Cell.openings q cells + 1 := by
  rw [openings_cons, if_pos ⟨hc, hq⟩]

/-- No cell makes the number smaller. -/
theorem Buffer.Cell.openings_le_cons : Cell.openings q cells ≤ Cell.openings q (c :: cells) := by
  rw [openings_cons]
  omega

/-- What is not of the class does not count. -/
theorem Buffer.Cell.openings_eq_zero (h : ∀ d ∈ cells, q d = false) : Cell.openings q cells = 0 := by
  refine List.countP_eq_zero.mpr fun d hd => ?_
  rw [h d hd, Bool.and_false]
  exact Bool.false_ne_true

theorem Phase.notOfTemplate_eq_true (h : c.mark ≠ some .trusted) : Phase.notOfTemplate c = true := by
  simp [notOfTemplate, ofTemplate, h]

theorem Phase.notOfTemplate_eq_false (h : c.mark = some .trusted) : Phase.notOfTemplate c = false := by
  simp [notOfTemplate, ofTemplate, h]

/-- The braces of all cells are those of their text. -/
theorem Buffer.Cell.openings_anyCell :
    Cell.openings Phase.anyCell cells = (Cell.text cells).openings := by
  rw [Text.openings, List.count, Cell.text, List.countP_map, openings]
  refine List.countP_congr fun d _ => ?_
  simp [Phase.anyCell]

/-- Every opening brace of data counts. -/
theorem Buffer.Cell.openings_data (value : Text) :
    Cell.openings Phase.notOfTemplate (Cell.ofText .resolved value) = value.openings := by
  rw [Text.openings, List.count, openings, Cell.ofText, List.countP_map]
  refine List.countP_congr fun d _ => ?_
  simp [Phase.notOfTemplate, Phase.ofTemplate]

/-! ## 2. Sweeps -/

/-- Filling a placeholder meets no brace, and what is taken over has no more braces than the interior
    it is taken from. -/
structure Filler.Frugal (filler : Filler) : Prop where
  quiet (phase : Phase) (filled : Nat) (brace : Cell) (interior : List Cell) :
    ∀ e ∈ (filler.fill filled brace interior).1, e.isMeeting phase = false
  openings {filled : Nat} {brace : Cell} {interior cells : List Cell} {trace : List Happening} :
    filler.fill filled brace interior = (trace, .ok (.template cells)) →
      Cell.openings Phase.anyCell cells ≤ Cell.openings Phase.anyCell interior

theorem frugal_fieldFiller (s : Splitter) (record : Record) : (fieldFiller s record).Frugal where
  quiet _ := fieldFiller_reports (fun _ => rfl) (fun _ => rfl) s record
  openings {filled brace interior cells trace} h := by
    obtain ⟨p, hp, _, rfl⟩ := fieldFiller_template h
    rw [Cell.openings_anyCell, Cell.openings_anyCell, Placeholder.text_fallbackCells hp]
    have hstrip : ((Cell.text interior).strip).Sublist (Cell.text interior) := by
      rw [← Cell.text_strip]
      obtain ⟨lead, trail, hsplit, _, _⟩ := Cell.strip_eq interior
      conv => rhs; rw [hsplit]
      exact ((List.sublist_append_right _ _).trans (List.sublist_append_left _ _)).map _
    rcases Placeholder.ofInterior_fallback hp with hf | hf
    · rw [hf]
      exact Nat.zero_le _
    · exact (((List.sublist_cons_self _ _).trans hf.sublist).trans hstrip).count_le _

theorem frugal_commandFiller (runner : Runner) : (commandFiller runner).Frugal where
  quiet _ filled _ _ := commandFiller_reports (by rfl) (fun _ => rfl) runner filled
  openings {filled brace interior cells trace} h := by
    obtain ⟨_, _, _, hf⟩ := commandFiller_cases h
    cases hf

theorem meetings_report (phase : Phase) (b : Buffer) : meetings phase (phase.report b) = 0 := by
  cases phase with
  | fields => rfl
  | commands => rfl

/-- Resolving a brace meets no other one. -/
theorem meetings_resolveBrace {phase : Phase} {filler : Filler} (hfill : filler.Frugal) {filled : Nat}
    {done : List Cell} {rest : List Cell} {trace : List Happening} {result : Except Error Front}
    (h : resolveBrace phase filler filled done c rest = (trace, result)) : meetings phase trace = 0 := by
  have hquiet : ∀ e ∈ (resolveBrace phase filler filled done c rest).1, e.isMeeting phase = false :=
    resolveBrace_reports (by rfl) (fun _ => hfill.quiet phase filled c) rest
  rw [h] at hquiet
  exact List.countP_eq_zero.mpr fun e he => Bool.eq_false_iff.mp (hquiet e he)

/-- Once a brace is resolved, there is one less to read. -/
theorem openings_resolveBrace {phase : Phase} {filler : Filler} (hfill : filler.Frugal) {filled : Nat}
    {done rest : List Cell} {trace : List Happening} {f : Front} (hc : c.char = ('{' : CodePoint))
    (h : resolveBrace phase filler filled done c rest = (trace, .ok f)) :
    Cell.openings Phase.anyCell f.rest + 1 ≤ Cell.openings Phase.anyCell (c :: rest) := by
  rw [Cell.openings_brace hc rfl]
  obtain ⟨_, _, _, _, rfl⟩ | ⟨_, interior, after, filling, hscan, hput, rfl⟩ := resolveBrace_cases h
  · exact Nat.le_refl _
  · obtain ⟨close, _, rfl⟩ := Brace.scan_closed _ _ _ _ _ _ hscan
    have hafter : Cell.openings Phase.anyCell after ≤ Cell.openings Phase.anyCell (close :: after) :=
      Cell.openings_le_cons
    rw [Cell.openings_append]
    cases filling with
    | data value =>
      show Cell.openings Phase.anyCell after + 1 ≤ _
      omega
    | template cells =>
      have hcells := hfill.openings hput
      show Cell.openings Phase.anyCell (cells ++ after) + 1 ≤ _
      rw [Cell.openings_append]
      omega

/-- **A sweep meets no more braces than are left to read.** -/
theorem meetings_sweep (phase : Phase) {filler : Filler} (hfill : filler.Frugal) (spare : List Mark)
    (filled : Nat) (done rest : List Cell) :
    meetings phase (sweep phase filler spare filled done rest).trace
      ≤ Cell.openings Phase.anyCell rest := by
  fun_induction sweep phase filler spare filled done rest with
  | case1 => exact Nat.zero_le _
  | case2 => exact Nat.zero_le _
  | case3 filled done c rest _ ih => exact Nat.le_trans ih Cell.openings_le_cons
  | case4 filled done c rest hl trace e hr =>
    obtain ⟨hc, _⟩ := Phase.isLive_eq_true hl
    rw [meetings_met, meetings_resolveBrace hfill hr, Cell.openings_brace hc rfl]
    omega
  | case5 filled done c rest hl trace f hr _ ih =>
    obtain ⟨hc, _⟩ := Phase.isLive_eq_true hl
    have hless := openings_resolveBrace hfill hc hr
    rw [Progress.trace_after, List.cons_append, List.cons_append, meetings_met, meetings_append,
      meetings_append, meetings_resolveBrace hfill hr, meetings_report]
    omega

/-- **Where no live brace is of the template, a sweep meets braces of data only.** -/
theorem meetings_sweep_data (phase : Phase) {filler : Filler} (hfill : filler.Frugal)
    (spare : List Mark) (filled : Nat) (done rest : List Cell)
    (h : phase.hasLive Phase.ofTemplate done.head? rest = false) :
    meetings phase (sweep phase filler spare filled done rest).trace
      ≤ Cell.openings Phase.notOfTemplate rest := by
  fun_induction sweep phase filler spare filled done rest with
  | case1 => exact Nat.zero_le _
  | case2 => exact Nat.zero_le _
  | case3 filled done c rest _ ih =>
    exact Nat.le_trans (ih (Bool.or_eq_false_iff.mp h).2) Cell.openings_le_cons
  | case4 filled done c rest hl trace e hr =>
    obtain ⟨hc, _⟩ := Phase.isLive_eq_true hl
    have hdata := Phase.notOfTemplate_eq_true (Phase.mark_ne_trusted h hl)
    rw [meetings_met, meetings_resolveBrace hfill hr, Cell.openings_brace hc hdata]
    omega
  | case5 filled done c rest hl trace f hr _ ih =>
    obtain ⟨_, hrest⟩ := Bool.or_eq_false_iff.mp h
    obtain ⟨hc, _⟩ := Phase.isLive_eq_true hl
    have hmark := Phase.mark_ne_trusted h hl
    have hdata := Phase.notOfTemplate_eq_true hmark
    obtain ⟨_, _, _, rfl, rfl⟩ | ⟨hm, _⟩ := resolveBrace_cases hr
    · have hmet : meetings phase (sweep phase filler spare filled (c :: guardCell :: done) rest).trace
          ≤ Cell.openings Phase.notOfTemplate rest := ih hrest
      rw [Progress.trace_after, List.cons_append, List.cons_append, meetings_met, meetings_append,
        meetings_append, meetings_resolveBrace hfill hr, meetings_report, Cell.openings_brace hc hdata,
        Nat.zero_add]
      exact Nat.succ_le_succ hmet
    · exact absurd hm hmark

/-! ## 3. The phase of fields -/

/-- The braces of a value that is put in are counted when its placeholder is understood. -/
theorem openingsOfValues_data {s : Splitter} {record : Record} {filled : Nat} {brace : Cell}
    {interior : List Cell} {trace : List Happening} {value : Text}
    (h : (fieldFiller s record).fill filled brace interior = (trace, .ok (.data value))) :
    openingsOfValues s record trace = value.openings := by
  obtain ⟨p, _, rfl, ⟨v, hv, hf⟩ | ⟨_, hf⟩⟩ := fieldFiller_cases h
  · cases hf
    have hvalue : Happening.value? s record (.understood p) = some value := by
      rw [Happening.value?, hv]
    rw [openingsOfValues, List.filterMap_cons_none rfl, List.filterMap_cons_some hvalue]
    simp
  · cases hf

/-- Resolving a brace adds the braces of the value that is put in, if one is. -/
theorem openings_resolveField {s : Splitter} {record : Record} {filled : Nat} {done rest : List Cell}
    {trace : List Happening} {f : Front}
    (h : resolveBrace .fields (fieldFiller s record) filled done c rest = (trace, .ok f)) :
    Cell.openings Phase.notOfTemplate f.cells
      ≤ Cell.openings Phase.notOfTemplate (done.reverse ++ c :: rest)
        + openingsOfValues s record trace := by
  obtain ⟨_, _, _, _, rfl⟩ | ⟨_, interior, after, filling, hscan, hput, rfl⟩ := resolveBrace_cases h
  · have hguard : Cell.openings Phase.notOfTemplate (guardCell :: done)
        = Cell.openings Phase.notOfTemplate done := by
      rw [Cell.openings_cons, if_neg (by decide), Nat.add_zero]
    simp only [Front.cells, Cell.openings_append, Cell.openings_reverse, Cell.openings_cons (c := c),
      hguard]
    omega
  · obtain ⟨close, _, rfl⟩ := Brace.scan_closed _ _ _ _ _ _ hscan
    have hafter : Cell.openings Phase.notOfTemplate after
        ≤ Cell.openings Phase.notOfTemplate (c :: (interior ++ close :: after)) := by
      refine Nat.le_trans ?_ Cell.openings_le_cons
      rw [Cell.openings_append]
      exact Nat.le_trans Cell.openings_le_cons (Nat.le_add_left _ _)
    cases filling with
    | data value =>
      simp only [Front.cells, Filling.put, List.reverse_append, List.reverse_reverse,
        Cell.openings_append, Cell.openings_reverse, Cell.openings_data, openingsOfValues_data hput]
      omega
    | template cells =>
      obtain ⟨p, _, _, rfl⟩ := fieldFiller_template hput
      have hnone : Cell.openings Phase.notOfTemplate (p.fallbackCells interior) = 0 :=
        Cell.openings_eq_zero fun d hd =>
          Phase.notOfTemplate_eq_false (Placeholder.mark_of_mem_fallbackCells hd)
      simp only [Front.cells, Filling.put, Cell.openings_append, Cell.openings_reverse, hnone]
      omega

/-- **Of data, a sweep over fields leaves no more braces than there were and than it puts in.** -/
theorem openings_sweep (s : Splitter) (record : Record) (spare : List Mark) (filled : Nat)
    (done rest : List Cell) :
    Cell.openings Phase.notOfTemplate (sweep .fields (fieldFiller s record) spare filled done rest).state
      ≤ Cell.openings Phase.notOfTemplate (done.reverse ++ rest)
        + openingsOfValues s record
            (sweep .fields (fieldFiller s record) spare filled done rest).trace := by
  fun_induction sweep .fields (fieldFiller s record) spare filled done rest with
  | case1 => simp
  | case2 => exact Nat.le_add_right _ _
  | case3 filled done c rest _ ih =>
    rwa [List.reverse_cons, List.append_assoc, List.singleton_append] at ih
  | case4 => exact Nat.le_add_right _ _
  | case5 filled done c rest hl trace f hr _ ih =>
    have hstep := openings_resolveField hr
    have htrace : openingsOfValues s record (.met .fields done.length :: trace
        ++ Phase.fields.report (f.buffer spare)) = openingsOfValues s record trace := by
      rw [openingsOfValues_append]
      rfl
    rw [Progress.state_after, Progress.trace_after, openingsOfValues_append, htrace]
    rw [← Front.cells] at ih
    omega

/-- What is reported of the buffer at the end of a sweep is no meeting. -/
theorem meetings_surveying (phase : Phase) (spare : List Mark) (p : Progress (List Cell)) :
    meetings phase (p.surveying spare) = 0 := by
  unfold Progress.surveying
  split
  · rfl
  · rfl

/-- Where no live brace is of the template, the phase of fields meets braces of data only, each of
    them once. -/
theorem meetings_settle_data {filler : Filler} (hfill : filler.Frugal) (spare : List Mark)
    {cells : List Cell} (h : Phase.fields.hasLive Phase.ofTemplate none cells = false) :
    meetings .fields (settle filler spare cells).trace ≤ Cell.openings Phase.notOfTemplate cells := by
  have hfirst := meetings_sweep_data .fields hfill spare 0 [] cells h
  rw [settle]
  split
  · rename_i hmet
    have hcalm := hasLive_sweep filler spare 0 [] cells trivial h hmet.1
    have hlast := trace_sweep_eq_nil filler spare .fields 0 [] _ hcalm
    have hend : (settle filler spare (sweep .fields filler spare 0 [] cells).state).trace = [] := by
      rw [settle, dif_neg fun hn => hn.2 hlast, hlast]
    rw [Progress.trace_after, hend, List.append_nil, meetings_append, meetings_surveying]
    exact hfirst
  · exact hfirst

/-- **The phase of fields meets no more braces than the template has, and the values that it puts
    in.** -/
theorem meetings_settle (s : Splitter) (record : Record) (spare : List Mark) {cells : List Cell}
    (h : ∀ c ∈ cells, c.mark = some .trusted) :
    meetings .fields (settle (fieldFiller s record) spare cells).trace
      ≤ (Cell.text cells).openings
        + openingsOfValues s record (settle (fieldFiller s record) spare cells).trace := by
  have hfill := frugal_fieldFiller s record
  have hfirst := meetings_sweep .fields hfill spare 0 [] cells
  rw [Cell.openings_anyCell] at hfirst
  rw [settle]
  split
  · rename_i hmet
    have hdata := openings_sweep s record spare 0 [] cells
    have hnone : Cell.openings Phase.notOfTemplate ([].reverse ++ cells) = 0 :=
      Cell.openings_eq_zero fun d hd => Phase.notOfTemplate_eq_false (h d hd)
    have hsecond := meetings_settle_data hfill spare
      (hasLive_sweep_template (fieldFiller s record) spare 0 [] cells trivial hmet.1)
    rw [Progress.trace_after, meetings_append, meetings_append, meetings_surveying,
      openingsOfValues_append, openingsOfValues_append]
    omega
  · omega

/-! ## 4. Both phases -/

/-- **An expansion meets no more braces than there are.** On a fresh buffer, the phase of fields meets
    at most as many live braces as the template and the values that are put in have opening braces
    together; the phase of commands, on whichever buffer, at most as many as that buffer has. This
    holds also of a phase that ends with a failure, and of the brace it fails at. -/
theorem meetings_bounded (s : Splitter) (runner : Runner) (template : Text) (record : Record) :
    (let p := resolveFields s record (.ofTemplate template)
     meetings .fields p.trace ≤ template.openings + openingsOfValues s record p.trace) ∧
    ∀ b : Buffer, meetings .commands (resolveCommands runner b).trace ≤ b.text.openings := by
  refine ⟨?_, fun b => ?_⟩
  · have hmet := meetings_settle s record [] (Cell.trusted_ofTemplate (t := template))
    rw [Cell.text_ofTemplate] at hmet
    rw [resolveFields_ofTemplate]
    exact hmet
  · have hmet := meetings_sweep .commands (frugal_commandFiller runner) b.spareMarks 0 [] b.cells
    rwa [Cell.openings_anyCell, ← Buffer.text_eq] at hmet

end GraphFeed
