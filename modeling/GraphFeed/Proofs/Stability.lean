import GraphFeed.Proofs.PhaseOrder

/-!
# A finished expansion is stable

Once both phases of an expansion have been successful, they can be called on its buffer as often as
one likes, with any records and any runners: no call fails or runs a command, and nothing but guards
is put in, so that the cleaned-up text stays as it is (`expansion_stable`).

What a finished buffer is like, is said of a cell and its neighbours: it is no live brace of the
template for either phase (`Quiet`). Whatever comes to stand behind a brace makes it one of some kind,
so that a quiet brace in front of another cell is escaped, and stays quiet whatever comes to stand
there (`Quiet.of_some`).

* `quiet_sweepCommands`: a sweep over commands leaves quiet cells behind, but for the braces of
  outputs;
* `quiet_guarded`: guards keep cells quiet, and where no live brace is of the template, a phase puts
  in guards and does nothing else.

That calling both phases again does nothing at all is another matter: a sweep over commands goes on
behind an output and puts no guards into it. It is true exactly if every opening brace of an output
ends the text (`rerun_eq_iff`).
-/

namespace GraphFeed

open Buffer (Cell)

/-! ## 1. Quiet cells -/

/-- A cell is a live brace of a class for neither phase. -/
def Quiet (q : Cell → Bool) (before : Option Cell) (c : Cell) (next : Option Cell) : Prop :=
  ∀ phase : Phase, phase.Calm q before c next

variable {q : Cell → Bool} {before next : Option Cell} {c x : Cell} {cells more rest done : List Cell}

/-- Every code point makes an unescaped brace before it one of some kind. -/
theorem Phase.exists_opens (x : CodePoint) : ∃ phase : Phase, phase.opens x = true := by
  by_cases h : x = ('!' : CodePoint)
  · exact ⟨.commands, decide_eq_true h⟩
  · exact ⟨.fields, decide_eq_true h⟩

theorem Phase.live_of_unescaped {phase : Phase} (hc : c.char = ('{' : CodePoint))
    (hu : unescapedAfter before = .ok true) (ho : phase.opens x.char = true) :
    phase.live before c (some x) = true := by
  simp [live, isLive, hc, hu, ho]

theorem quiet_of_ne (h : c.char ≠ ('{' : CodePoint)) : Quiet q before c next := by
  intro phase
  rw [Phase.Calm, Phase.live_eq_false_of_ne h, Bool.false_and]

theorem quiet_of_class (h : q c = false) : Quiet q before c next := by
  intro phase
  rw [Phase.Calm, h, Bool.and_false]

theorem quiet_behind_guard : Quiet q (some guardCell) c next := by
  intro phase
  rw [Phase.Calm, Phase.live_guarded, Bool.false_and]

/-- **Behind what escapes nothing, a brace is quiet only at the end.** -/
theorem quiet_iff (hu : unescapedAfter before = .ok true) :
    Quiet q before c next ↔ (c.char = ('{' : CodePoint) → q c = true → next = none) := by
  constructor
  · intro h hc hq
    cases next with
    | none => rfl
    | some x =>
      obtain ⟨phase, ho⟩ := Phase.exists_opens x.char
      have hcalm := h phase
      rw [Phase.Calm, Phase.live_of_unescaped hc hu ho, hq] at hcalm
      cases hcalm
  · intro h
    by_cases hc : c.char = ('{' : CodePoint)
    · cases hq : q c with
      | false => exact quiet_of_class hq
      | true =>
        intro phase
        rw [h hc hq]
        simp [Phase.Calm, Phase.live, Phase.isLive, hc]
    · exact quiet_of_ne hc

/-- **What is quiet with a cell behind it stays quiet** with any other cell there. -/
theorem Quiet.of_some (h : Quiet q before c (some x)) (next : Option Cell) :
    Quiet q before c next := by
  intro phase
  refine Bool.eq_false_iff.mpr fun hlive => ?_
  obtain ⟨hlive, hq⟩ := (Bool.and_eq_true _ _).mp hlive
  obtain ⟨hc, hu, _⟩ := Phase.isLive_eq_true (Phase.isLive_of_live hlive)
  cases (quiet_iff hu).mp h hc hq

/-- Cells that are calm for fields may stand behind a cell that escapes no brace which was not
    escaped before. -/
theorem calm_of_before {before' : Option Cell} (hu : unescapedAfter before = .ok true)
    (h : Along (Phase.fields.Calm q) before cells none) :
    Along (Phase.fields.Calm q) before' cells none := by
  refine h.of_before fun c n hc => Bool.eq_false_iff.mpr fun hlive => ?_
  obtain ⟨hlive, hq⟩ := (Bool.and_eq_true _ _).mp hlive
  obtain ⟨hchar, _, d, rfl, ho⟩ := Phase.isLive_eq_true (Phase.isLive_of_live hlive)
  rw [Phase.Calm, Phase.live_of_unescaped hchar hu ho, hq] at hc
  cases hc

/-! ## 2. The sweep over commands -/

/-- The outputs that commands have put in, each with the position at which it begins. -/
def outputs : List Happening → List (Nat × Text)
  | .met _ index :: .running _ _ _ :: .answered output :: trace =>
    (index, output.inlined) :: outputs trace
  | _ :: trace => outputs trace
  | [] => []

/-- Every opening brace in an output is the last one of `length` code points. -/
def BracesEnd (length : Nat) (outputs : List (Nat × Text)) : Prop :=
  ∀ p ∈ outputs, ∀ k, p.2[k]? = some ('{' : CodePoint) → p.1 + k + 1 = length

/-- An opening brace of data. -/
def dataBrace : Cell := ⟨⟨'{', none⟩, some .resolved⟩

theorem bracesEnd_cons {length index : Nat} {output : Text} {later : List (Nat × Text)} :
    BracesEnd length ((index, output) :: later) ↔
      (∀ k, output[k]? = some ('{' : CodePoint) → index + k + 1 = length) ∧
        BracesEnd length later := List.forall_mem_cons

/-- The braces of an output are quiet exactly if they are at its end and nothing is behind it. -/
theorem quiet_output : ∀ {output : Text} {before : Option Cell},
    unescapedAfter before = .ok true →
      (Along (Quiet q) before (Cell.ofText .resolved output) next ↔
        (q dataBrace = true →
          ∀ k, output[k]? = some ('{' : CodePoint) → k + 1 = output.length ∧ next = none))
  | [], _, _ => by simp [Cell.ofText]
  | x :: output, before, hu => by
    -- a backslash of the output escapes nothing in it
    have hdata : unescapedAfter (some ⟨⟨x, none⟩, some .resolved⟩) = .ok true := by
      simp [unescapedAfter]
    have hhead : ((Cell.ofText .resolved output).head?.or next = none) ↔
        (output = [] ∧ next = none) := by
      cases output <;> simp [Cell.ofText]
    have hcons : Along (Quiet q) before (Cell.ofText .resolved (x :: output)) next ↔
        Quiet q before ⟨⟨x, none⟩, some .resolved⟩ ((Cell.ofText .resolved output).head?.or next) ∧
          Along (Quiet q) (some ⟨⟨x, none⟩, some .resolved⟩) (Cell.ofText .resolved output) next :=
      Iff.rfl
    rw [hcons, quiet_iff hu, quiet_output hdata, hhead]
    constructor
    · rintro ⟨hfirst, hlater⟩ hq k hk
      cases k with
      | zero =>
        obtain rfl : x = ('{' : CodePoint) := Option.some.inj hk
        obtain ⟨rfl, hnext⟩ := hfirst rfl hq
        exact ⟨rfl, hnext⟩
      | succ k =>
        obtain ⟨hlast, hnext⟩ := hlater hq k hk
        exact ⟨congrArg (· + 1) hlast, hnext⟩
    · intro h
      refine ⟨fun hx hq => ?_, fun hq k hk => ?_⟩
      · obtain rfl : x = ('{' : CodePoint) := hx
        obtain ⟨hlast, hnext⟩ := h hq 0 rfl
        exact ⟨List.eq_nil_of_length_eq_zero (Nat.succ.inj hlast).symm, hnext⟩
      · obtain ⟨hlast, hnext⟩ := h hq (k + 1) hk
        exact ⟨Nat.succ.inj hlast, hnext⟩

/-- An output that is put in behind what escapes nothing adds its own braces to those that have to
    be at the end. -/
theorem quiet_put {output : Text} {later : List (Nat × Text)} {tail : List Cell}
    (hu : unescapedAfter done.head? = .ok true)
    (hlater : Along (Quiet q) ((Cell.ofText .resolved output).getLast?.or done.head?) tail none ↔
      (q dataBrace = true →
        BracesEnd (done.length + (Cell.ofText .resolved output ++ tail).length) later)) :
    Along (Quiet q) done.head? (Cell.ofText .resolved output ++ tail) none ↔
      (q dataBrace = true → BracesEnd (done.length + (Cell.ofText .resolved output ++ tail).length)
        ((done.length, output) :: later)) := by
  have hown : Along (Quiet q) done.head? (Cell.ofText .resolved output) tail.head? ↔
      (q dataBrace = true → ∀ k, output[k]? = some ('{' : CodePoint) →
        done.length + k + 1 = done.length + (Cell.ofText .resolved output ++ tail).length) := by
    rw [quiet_output hu]
    refine imp_congr_right fun _ => forall_congr' fun k => imp_congr_right fun hk => ?_
    obtain ⟨hlt, _⟩ := List.getElem?_eq_some_iff.mp hk
    rw [List.head?_eq_none_iff, ← List.length_eq_zero_iff, List.length_append, Cell.length_ofText]
    omega
  rw [along_append, Option.or_none, hown, hlater, ← imp_and]
  exact imp_congr_right fun _ => bracesEnd_cons.symm

/-- **A sweep over commands leaves the cells it has passed, and quiet cells behind them, but for the
    braces of outputs** that are not at the end. -/
theorem quiet_sweepCommands (runner : Runner) (spare : List Mark) (filled : Nat)
    (done rest : List Cell) (hcalm : Along (Phase.fields.Calm q) done.head? rest none)
    (hok : (sweep .commands (commandFiller runner) spare filled done rest).error = none) :
    ∃ tail, (sweep .commands (commandFiller runner) spare filled done rest).state
          = done.reverse ++ tail ∧
      (rest = [] → tail = []) ∧
      (Along (Quiet q) done.head? tail none ↔ (q dataBrace = true →
        BracesEnd (done.length + tail.length)
          (outputs (sweep .commands (commandFiller runner) spare filled done rest).trace))) := by
  fun_induction sweep .commands (commandFiller runner) spare filled done rest with
  | case1 filled done =>
    refine ⟨[], (List.append_nil _).symm, fun _ => rfl, ?_⟩
    simp [outputs, BracesEnd]
  | case2 => cases hok
  | case3 filled done c rest hl ih =>
    obtain ⟨tail, hstate, hend, hiff⟩ := ih hcalm.2 hok
    have hquiet : Quiet q done.head? c tail.head? := by
      have hc : Quiet q done.head? c rest.head? := by
        intro phase
        cases phase with
        | fields =>
          have hc := hcalm.1
          rwa [Option.or_none] at hc
        | commands => simp [Phase.Calm, Phase.live, hl]
      cases rest with
      | nil =>
        rw [hend rfl]
        exact hc
      | cons d rest => exact hc.of_some _
    refine ⟨c :: tail, ?_, fun hnil => (by cases hnil), ?_⟩
    · rw [hstate, List.reverse_cons, List.append_assoc]
      rfl
    · have hlength : done.length + (c :: tail).length = (c :: done).length + tail.length := by
        simp only [List.length_cons]
        omega
      rw [along_cons, Option.or_none, hlength]
      exact (and_iff_right hquiet).trans hiff
  | case4 => cases hok
  | case5 filled done c rest hl trace f hr _ ih =>
    obtain ⟨_, hu, _⟩ := Phase.isLive_eq_true hl
    obtain ⟨m, _, _, rfl, rfl⟩ | ⟨_, interior, after, filling, hscan, hfill, rfl⟩ :=
      resolveBrace_cases hr
    · obtain ⟨tail, hstate, _, hiff⟩ := ih hcalm.2 hok
      refine ⟨guardCell :: c :: tail, ?_, fun hnil => (by cases hnil), ?_⟩
      · rw [Progress.state_after, hstate]
        simp
      · have hlength : done.length + (guardCell :: c :: tail).length
            = (c :: guardCell :: done).length + tail.length := by
          simp only [List.length_cons]
          omega
        have hguard : Quiet q done.head? guardCell (some c) := quiet_of_ne (by decide)
        rw [along_cons, along_cons, hlength]
        refine (and_iff_right hguard).trans ((and_iff_right quiet_behind_guard).trans ?_)
        exact hiff
    · obtain ⟨close, hclose, rfl⟩ := Brace.scan_closed _ _ _ _ _ _ hscan
      obtain ⟨output, _, rfl, rfl⟩ := commandFiller_cases hfill
      have hbehind := (along_append.mp hcalm.2).2.2
      obtain ⟨tail, hstate, _, hiff⟩ := ih (calm_of_before (unescapedAfter_closing hclose) hbehind) hok
      refine ⟨Cell.ofText .resolved output.inlined ++ tail, ?_, fun hnil => (by cases hnil), ?_⟩
      · rw [Progress.state_after, hstate]
        simp [Filling.put]
      · have hlater := hiff
        rw [show ((Filling.data output.inlined).put filled done after).done
          = (Cell.ofText .resolved output.inlined).reverse ++ done from rfl, List.head?_append,
          List.head?_reverse] at hlater
        have hlength : ((Cell.ofText .resolved output.inlined).reverse ++ done).length + tail.length
            = done.length + (Cell.ofText .resolved output.inlined ++ tail).length := by
          simp only [List.length_append, List.length_reverse]
          omega
        rw [hlength] at hlater
        exact quiet_put hu hlater

/-- Where no live brace is of the template, a sweep over commands runs none. -/
theorem commands_sweep_of_noTemplate (runner : Runner) (spare : List Mark) (filled : Nat)
    (done rest : List Cell) (h : Phase.commands.hasLive Phase.ofTemplate done.head? rest = false) :
    (sweep .commands (commandFiller runner) spare filled done rest).trace.filterMap
      Happening.command? = [] := by
  suffices hcalls : (sweep .commands (commandFiller runner) spare filled done rest).trace.filterMap
      Happening.call? = [] by
    refine List.eq_nil_of_length_eq_zero ?_
    rw [Happening.length_commands, hcalls, List.length_nil]
  fun_induction sweep .commands (commandFiller runner) spare filled done rest with
  | case1 => rfl
  | case2 => rfl
  | case3 filled done c rest hl ih => exact ih (Bool.or_eq_false_iff.mp h).2
  | case4 filled done c rest hl trace e hr =>
    rcases calls_resolveBrace runner filled done c rest with hnone | ⟨hm, _⟩
    · rw [hr] at hnone
      exact hnone
    · have hc := (Bool.or_eq_false_iff.mp h).1
      simp [Phase.live, hl, Phase.ofTemplate, hm] at hc
  | case5 filled done c rest hl trace f hr _ ih =>
    obtain ⟨hc, hrest⟩ := Bool.or_eq_false_iff.mp h
    obtain ⟨m, _, _, rfl, rfl⟩ | ⟨hm, _⟩ := resolveBrace_cases hr
    · exact ih hrest
    · simp [Phase.live, hl, Phase.ofTemplate, hm] at hc

/-! ## 3. Guards -/

/-- Cells to which nothing but guards has been added. -/
inductive GuardsAdded : List Cell → List Cell → Prop
  | nil : GuardsAdded [] []
  | keep (c : Cell) {cells more : List Cell} (h : GuardsAdded cells more) :
      GuardsAdded (c :: cells) (c :: more)
  | guard {cells more : List Cell} (h : GuardsAdded cells more) :
      GuardsAdded cells (guardCell :: more)

theorem GuardsAdded.trans {most : List Cell} (h : GuardsAdded cells more)
    (h' : GuardsAdded more most) : GuardsAdded cells most := by
  induction h' generalizing cells with
  | nil => exact h
  | guard _ ih => exact .guard (ih h)
  | keep c _ ih =>
    cases h with
    | keep _ h => exact .keep c (ih h)
    | guard h => exact .guard (ih h)

/-- Guards can be taken out again. -/
theorem GuardsAdded.unguarded (h : GuardsAdded cells more) :
    Cell.unguarded more = Cell.unguarded cells := by
  induction h with
  | nil => rfl
  | keep c _ ih =>
    unfold Cell.unguarded at ih ⊢
    rw [List.filter_cons, List.filter_cons, ih]
  | guard _ ih =>
    unfold Cell.unguarded at ih ⊢
    rw [List.filter_cons_of_neg (by decide), ih]

theorem guardsAdded_guarded (phase : Phase) : ∀ (cells : List Cell) (before : Option Cell),
    GuardsAdded cells (guarded phase before cells)
  | [], _ => .nil
  | c :: rest, before => by
    have hrest := guardsAdded_guarded phase rest (some c)
    rw [guarded]
    split
    · exact .guard (.keep c hrest)
    · exact .keep c hrest

/-- **Guards keep cells quiet.** -/
theorem quiet_guarded {phase : Phase} : ∀ {cells : List Cell} {before : Option Cell},
    Along (Quiet q) before cells none → Along (Quiet q) before (guarded phase before cells) none
  | [], _, _ => trivial
  | c :: rest, before, h => by
    have hrest : Along (Quiet q) (some c) (guarded phase (some c) rest) none := quiet_guarded h.2
    rw [guarded]
    split
    · exact ⟨quiet_of_ne (by decide), quiet_behind_guard, hrest⟩
    · refine ⟨?_, hrest⟩
      cases rest with
      | nil => exact h.1
      | cons d rest => exact Quiet.of_some h.1 _

theorem hasLive_of_quiet (h : Along (Quiet q) before cells none) (phase : Phase) :
    phase.hasLive q before cells = false :=
  Phase.hasLive_eq_false_iff.mpr (h.imp_next (fun _ _ _ hc => hc phase) fun _ _ hc => hc phase)

/-! ## 4. Calls on a finished buffer -/

/-- No brace of the template is live in the buffer, for either phase. -/
structure Buffer.Finished (b : Buffer) : Prop where
  marked : Cell.AllMarked b.cells
  quiet : Along (Quiet Phase.ofTemplate) none b.cells none

/-- The phase that is called. -/
def PhaseCall.phase : PhaseCall → Phase
  | .fields _ => .fields
  | .commands _ => .commands

/-- What a call does on a buffer, if it does nothing but put guards in. -/
structure GuardsOnly (b : Buffer) (p : Progress Buffer) : Prop where
  error : p.error = none
  commands : p.trace.filterMap Happening.command? = []
  cells : GuardsAdded b.cells p.state.cells
  spareMarks : p.state.spareMarks = b.spareMarks

theorem Buffer.cleanup_eq {b : Buffer} (h : Cell.AllMarked b.cells) :
    b.cleanup = Cell.text (Cell.unguarded b.cells) := by
  have hcleanup := cleanup_ofCells h b.spareMarks
  rwa [ofCells_cells] at hcleanup

/-- **A call on a finished buffer guards the live braces of its kind, and does nothing else.** -/
theorem Buffer.Finished.apply {b : Buffer} (h : b.Finished) (s : Splitter) (call : PhaseCall) :
    (call.apply s b).state = .ofCells (guarded call.phase none b.cells) b.spareMarks ∧
      (call.apply s b).error = none ∧
      (call.apply s b).trace.filterMap Happening.command? = [] := by
  cases call with
  | fields record =>
    have hsettled : (settle (fieldFiller s record) b.spareMarks b.cells).state
        = guarded .fields none b.cells ∧
          (settle (fieldFiller s record) b.spareMarks b.cells).error = none :=
      settle_of_noTemplate b.spareMarks h.marked (hasLive_of_quiet h.quiet .fields)
    refine ⟨?_, hsettled.2, commands_settle s record b.spareMarks b.cells⟩
    show ofCells (settle (fieldFiller s record) b.spareMarks b.cells).state b.spareMarks = _
    rw [hsettled.1, PhaseCall.phase]
  | commands runner =>
    have hnone := hasLive_of_quiet h.quiet .commands
    obtain ⟨hstate, herror⟩ := sweep_of_noTemplate .commands (commandFiller runner) b.spareMarks 0 []
      b.cells (by simp) h.marked hnone
    refine ⟨?_, herror,
      commands_sweep_of_noTemplate runner b.spareMarks 0 [] b.cells hnone⟩
    show ofCells (sweep .commands (commandFiller runner) b.spareMarks 0 [] b.cells).state
      b.spareMarks = _
    rw [hstate]
    rfl

/-- **A finished buffer stays finished.** -/
theorem Buffer.Finished.step {b : Buffer} (h : b.Finished) (s : Splitter) (call : PhaseCall) :
    GuardsOnly b (call.apply s b) ∧ (call.apply s b).state.Finished := by
  obtain ⟨hstate, herror, hcommands⟩ := h.apply s call
  have hmarked : Cell.AllMarked (guarded call.phase none b.cells) := allMarked_guarded h.marked
  have hcells := cells_ofCells hmarked b.spareMarks
  refine ⟨⟨herror, hcommands, ?_, ?_⟩, ⟨?_, ?_⟩⟩
  · rw [hstate, hcells]
    exact guardsAdded_guarded call.phase b.cells none
  · rw [hstate, spareMarks_ofCells hmarked]
  · rw [hstate, hcells]
    exact hmarked
  · rw [hstate, hcells]
    exact quiet_guarded h.quiet

theorem GuardsOnly.trans {b b' : Buffer} {p : Progress Buffer}
    (hcells : GuardsAdded b.cells b'.cells) (hspare : b'.spareMarks = b.spareMarks)
    (h : GuardsOnly b' p) : GuardsOnly b p where
  error := h.error
  commands := h.commands
  cells := hcells.trans h.cells
  spareMarks := h.spareMarks.trans hspare

/-- Calls on a finished buffer put in guards and do nothing else. -/
theorem finished_performed (s : Splitter) (calls : List PhaseCall) :
    ∀ b : Buffer, b.Finished → ∀ p ∈ performed s calls b, GuardsOnly b p ∧ p.state.Finished := by
  induction calls with
  | nil => exact fun _ _ p hp => absurd hp List.not_mem_nil
  | cons call later ih =>
    intro b h
    obtain ⟨hguards, hstate⟩ := h.step s call
    refine List.forall_mem_cons.mpr ⟨⟨hguards, hstate⟩, fun p hp => ?_⟩
    obtain ⟨hlater, hfinished⟩ := ih _ hstate p hp
    exact ⟨.trans hguards.cells hguards.spareMarks hlater, hfinished⟩

/-! ## 5. After both phases -/

variable {s : Splitter} {runner : Runner} {t : Text} {record : Record}

/-- Both phases on the buffer of a template, on cells alone. -/
theorem resolveCommands_resolveFields (s : Splitter) (runner : Runner) (t : Text) (record : Record) :
    resolveCommands runner (resolveFields s record (.ofTemplate t)).state
      = (sweep .commands (commandFiller runner) [] 0 []
          (settle (fieldFiller s record) [] (Cell.ofTemplate t)).state).onBuffer [] := by
  have hmarked : Cell.AllMarked (settle (fieldFiller s record) [] (Cell.ofTemplate t)).state :=
    allMarked_settle [] (fieldFiller_keeps_mark s record) (Cell.allMarked_ofTemplate t)
  rw [resolveFields_ofTemplate, Progress.onBuffer, resolveCommands, Buffer.cells_ofCells hmarked,
    Buffer.spareMarks_ofCells hmarked]

/-- Every cell of a buffer has a mark after both phases. -/
theorem cells_resolveCommands (s : Splitter) (runner : Runner) (t : Text) (record : Record) :
    Cell.AllMarked (sweep .commands (commandFiller runner) [] 0 []
        (settle (fieldFiller s record) [] (Cell.ofTemplate t)).state).state ∧
      (resolveCommands runner (resolveFields s record (.ofTemplate t)).state).state.cells
        = (sweep .commands (commandFiller runner) [] 0 []
            (settle (fieldFiller s record) [] (Cell.ofTemplate t)).state).state := by
  have hmarked : Cell.AllMarked (sweep .commands (commandFiller runner) [] 0 []
      (settle (fieldFiller s record) [] (Cell.ofTemplate t)).state).state :=
    allMarked_sweep (commandFiller_keeps runner _)
      (allMarked_settle [] (fieldFiller_keeps_mark s record) (Cell.allMarked_ofTemplate t))
  rw [resolveCommands_resolveFields]
  exact ⟨hmarked, Buffer.cells_ofCells hmarked []⟩

/-- **Both phases together leave no live brace of the template for either of them.** -/
theorem finished_of_resolved (hfields : (resolveFields s record (.ofTemplate t)).error = none)
    (hcommands : (resolveCommands runner (resolveFields s record (.ofTemplate t)).state).error = none) :
    (resolveCommands runner (resolveFields s record (.ofTemplate t)).state).state.Finished := by
  obtain ⟨hmarked, hcells⟩ := cells_resolveCommands s runner t record
  rw [resolveFields_ofTemplate] at hfields
  rw [resolveCommands_resolveFields] at hcommands
  have hcalm := Phase.hasLive_eq_false_iff.mp (hasLive_settle _ _ _ hfields)
  obtain ⟨tail, hstate, _, hquiet⟩ := quiet_sweepCommands runner [] 0 [] _ hcalm hcommands
  refine ⟨by rwa [hcells], ?_⟩
  rw [hcells, hstate]
  exact hquiet.mpr fun hdata => absurd hdata (by decide)

/-- **A finished expansion is stable.** Once the phase of fields and the phase of commands have been
    successful on the buffer of a template, further calls of the phases, in any order and with any
    records and runners, do not fail and run no command. They put guards into the buffer and change
    nothing else, so that the cleaned-up text stays as it is. -/
theorem expansion_stable (s : Splitter) (runner : Runner) (t : Text) (record : Record)
    (hfields : (resolveFields s record (.ofTemplate t)).error = none)
    (hcommands : (resolveCommands runner (resolveFields s record (.ofTemplate t)).state).error = none)
    (calls : List PhaseCall) :
    let b := (resolveCommands runner (resolveFields s record (.ofTemplate t)).state).state
    ∀ p ∈ performed s calls b, p.error = none ∧ p.trace.filterMap Happening.command? = [] ∧
      GuardsAdded b.cells p.state.cells ∧ p.state.spareMarks = b.spareMarks ∧
      p.state.cleanup = b.cleanup := by
  intro b p hp
  have hfinished : b.Finished := finished_of_resolved hfields hcommands
  obtain ⟨hguards, hstate⟩ := finished_performed s calls b hfinished p hp
  refine ⟨hguards.error, hguards.commands, hguards.cells, hguards.spareMarks, ?_⟩
  rw [Buffer.cleanup_eq hstate.marked, Buffer.cleanup_eq hfinished.marked, hguards.cells.unguarded]

/-- The output of a command looks like a command, and is guarded when the phases are called again. -/
theorem expansion_stable_tempting :
    (resolveFields .standard ["\x7b"] (.ofTemplate "{!a}{1}.")).error = none ∧
    (resolveCommands tempting
      (resolveFields .standard ["\x7b"] (.ofTemplate "{!a}{1}.")).state).error = none ∧
    let b := (resolveCommands tempting
      (resolveFields .standard ["\x7b"] (.ofTemplate "{!a}{1}.")).state).state
    ∀ p ∈ performed .standard [.commands tempting, .fields [], .fields ["b"], .commands tempting] b,
      p.error = none ∧ p.trace.filterMap Happening.command? = [] ∧
        GuardsAdded b.cells p.state.cells ∧ p.state.spareMarks = b.spareMarks ∧
        p.state.cleanup = b.cleanup := by
  have hfields : (resolveFields .standard ["\x7b"] (.ofTemplate "{!a}{1}.")).error = none := by
    decide +kernel
  have hcommands : (resolveCommands tempting
      (resolveFields .standard ["\x7b"] (.ofTemplate "{!a}{1}.")).state).error = none := by
    decide +kernel
  exact ⟨hfields, hcommands, expansion_stable .standard tempting "{!a}{1}." ["\x7b"] hfields hcommands _⟩

/-! ## 6. Both phases once more -/

/-- A phase of fields that is successful leaves no live brace of its kind. -/
theorem calm_settle (filler : Filler) (spare : List Mark) (cells : List Cell)
    (h : (settle filler spare cells).error = none) :
    Along (Phase.fields.Calm Phase.anyCell) none (settle filler spare cells).state none := by
  fun_induction settle filler spare cells with
  | case1 cells p hp _ ih => exact ih h
  | case2 cells p hp =>
    have htrace : p.trace = [] := Classical.byContradiction fun hne => hp ⟨h, hne⟩
    obtain ⟨hstate, hcalm⟩ := sweep_of_trace_nil htrace h
    rw [hstate]
    exact Phase.hasLive_eq_false_iff.mp hcalm

/-- Guards make the cells more, if there are any. -/
theorem length_guarded (phase : Phase) : ∀ (cells : List Cell) (before : Option Cell),
    cells.length ≤ (guarded phase before cells).length ∧
      ((guarded phase before cells).length = cells.length →
        phase.hasLive Phase.anyCell before cells = false)
  | [], _ => ⟨Nat.le_refl _, fun _ => rfl⟩
  | c :: rest, before => by
    obtain ⟨hle, hcalm⟩ := length_guarded phase rest (some c)
    rw [guarded, Phase.hasLive]
    split
    · simp only [List.length_cons]
      omega
    · rename_i hlive
      rw [Bool.not_eq_true] at hlive
      refine ⟨Nat.succ_le_succ hle, fun hlength => ?_⟩
      rw [hlive, Bool.false_and, Bool.false_or]
      exact hcalm (Nat.succ.inj hlength)

/-- Cells are quiet as a whole exactly if guards of both kinds leave their number as it is. -/
theorem quiet_iff_length_guarded :
    Along (Quiet Phase.anyCell) none cells none ↔
      (guarded .commands none (guarded .fields none cells)).length = cells.length := by
  constructor
  · intro h
    rw [guarded_of_calm (hasLive_of_quiet h .fields), guarded_of_calm (hasLive_of_quiet h .commands)]
  · intro h
    obtain ⟨hle, hfields⟩ := length_guarded .fields cells none
    obtain ⟨hle', hcommands⟩ := length_guarded .commands (guarded .fields none cells) none
    have hcalm := hfields (by omega)
    rw [guarded_of_calm hcalm] at h hcommands
    have halong := (Phase.hasLive_eq_false_iff.mp hcalm).and
      (Phase.hasLive_eq_false_iff.mp (hcommands h))
    have hquiet : ∀ b c n, (Phase.fields.Calm Phase.anyCell b c n ∧
        Phase.commands.Calm Phase.anyCell b c n) → Quiet Phase.anyCell b c n := by
      rintro b c n ⟨hf, hc⟩ phase
      cases phase with
      | fields => exact hf
      | commands => exact hc
    exact halong.imp_next hquiet fun b c => hquiet b c none

/-- **Both phases leave a live brace only in an output**, in front of other cells. -/
theorem quiet_resolveCommands (hfields : (resolveFields s record (.ofTemplate t)).error = none)
    (hcommands : (resolveCommands runner (resolveFields s record (.ofTemplate t)).state).error = none) :
    let q := resolveCommands runner (resolveFields s record (.ofTemplate t)).state
    Along (Quiet Phase.anyCell) none q.state.cells none ↔
      BracesEnd q.state.text.length (outputs q.trace) := by
  intro q
  obtain ⟨_, hcells⟩ := cells_resolveCommands s runner t record
  have htrace : q.trace = (sweep .commands (commandFiller runner) [] 0 []
      (settle (fieldFiller s record) [] (Cell.ofTemplate t)).state).trace := by
    show (resolveCommands runner _).trace = _
    rw [resolveCommands_resolveFields, Progress.onBuffer]
  rw [resolveFields_ofTemplate] at hfields
  rw [resolveCommands_resolveFields] at hcommands
  obtain ⟨tail, hstate, _, hiff⟩ := quiet_sweepCommands runner [] 0 [] _
    (calm_settle _ _ _ hfields) hcommands
  rw [List.reverse_nil, List.nil_append] at hstate
  rw [List.length_nil, Nat.zero_add] at hiff
  rw [Buffer.text_eq, Cell.length_text, hcells, htrace, hstate]
  exact hiff.trans (imp_iff_right rfl)

/-- **Both phases again do nothing exactly if every opening brace of an output ends the text.** After
    a phase of fields and a phase of commands that were successful, a second phase of fields and a
    second one of commands, with any record and any runner, are successful as well. They leave text
    and marks as they are if and only if, in the outputs that commands have put in, every opening
    brace is the last code point of the text. -/
theorem rerun_eq_iff (s : Splitter) (runner runner' : Runner) (t : Text) (record record' : Record)
    (hfields : (resolveFields s record (.ofTemplate t)).error = none)
    (hcommands : (resolveCommands runner (resolveFields s record (.ofTemplate t)).state).error = none) :
    let q := resolveCommands runner (resolveFields s record (.ofTemplate t)).state
    let again := resolveFields s record' q.state
    let last := resolveCommands runner' again.state
    again.error = none ∧ last.error = none ∧
      ((last.state.text = q.state.text ∧ last.state.marks = q.state.marks) ↔
        ∀ p ∈ outputs q.trace, ∀ k, p.2[k]? = some ('{' : CodePoint) →
          p.1 + k + 1 = q.state.text.length) := by
  intro q again last
  have hfinished : q.state.Finished := finished_of_resolved hfields hcommands
  obtain ⟨hagain, hok, _⟩ := hfinished.apply s (.fields record')
  obtain ⟨_, hstep⟩ := hfinished.step s (.fields record')
  obtain ⟨hlast, hok', _⟩ := hstep.apply s (.commands runner')
  have hmarked : Cell.AllMarked (guarded .fields none q.state.cells) :=
    allMarked_guarded hfinished.marked
  change last.state = .ofCells (guarded .commands none again.state.cells) again.state.spareMarks
    at hlast
  change again.state = .ofCells (guarded .fields none q.state.cells) q.state.spareMarks at hagain
  rw [hagain, Buffer.cells_ofCells hmarked, Buffer.spareMarks_ofCells hmarked] at hlast
  have hsame : (last.state.text = q.state.text ∧ last.state.marks = q.state.marks) ↔
      Along (Quiet Phase.anyCell) none q.state.cells none := by
    constructor
    · rintro ⟨htext, _⟩
      have hlength := congrArg List.length htext
      rw [hlast, Buffer.text_ofCells, Buffer.text_eq, Cell.length_text, Cell.length_text] at hlength
      exact quiet_iff_length_guarded.mpr hlength
    · intro hcalm
      have hstate : last.state = q.state := by
        rw [hlast, guarded_of_calm (hasLive_of_quiet hcalm .fields),
          guarded_of_calm (hasLive_of_quiet hcalm .commands), Buffer.ofCells_cells]
      rw [hstate]
      exact ⟨rfl, rfl⟩
  exact ⟨hok, hok', hsame.trans (quiet_resolveCommands hfields hcommands)⟩

/-- A brace at the end of an output is left alone if it ends the text: the output `b{` does, in
    front of nothing. -/
theorem rerun_eq_iff_lastBrace :
    let runner : Runner := fun _ _ => .ok ⟨"b\x7b", []⟩
    let q := resolveCommands runner (resolveFields .standard [] (.ofTemplate "{!a}")).state
    let again := resolveFields .standard [] q.state
    let last := resolveCommands runner again.state
    again.error = none ∧ last.error = none ∧
      last.state.text = q.state.text ∧ last.state.marks = q.state.marks := by
  intro runner q again last
  obtain ⟨hagain, hlast, hiff⟩ := rerun_eq_iff .standard runner runner "{!a}" [] []
    (by decide +kernel) (by decide +kernel)
  have houtputs : outputs q.trace = [(0, ("b\x7b" : Text))] := by decide +kernel
  have hlength : q.state.text.length = 2 := by decide +kernel
  refine ⟨hagain, hlast, hiff.mpr ?_⟩
  rw [houtputs, hlength]
  intro p hp k hk
  obtain rfl := List.mem_singleton.mp hp
  match k with
  | 0 => cases hk
  | 1 => rfl

/-- The command of the template `{!a}` may answer `{x}`: the brace of this output is live, and a
    second phase of fields puts a guard in front of it. -/
theorem rerun_guards_output :
    ¬ ∀ (s : Splitter) (runner : Runner) (t : Text) (record : Record),
      (resolveFields s record (.ofTemplate t)).error = none →
      (resolveCommands runner (resolveFields s record (.ofTemplate t)).state).error = none →
        let b := (resolveCommands runner (resolveFields s record (.ofTemplate t)).state).state
        let last := (resolveCommands runner (resolveFields s record b).state).state
        last.text = b.text ∧ last.marks = b.marks := by
  intro h
  have hsame := h .standard (fun _ _ => .ok ⟨"{x}", []⟩) "{!a}" [] (by decide +kernel)
    (by decide +kernel)
  exact absurd hsame (by decide +kernel)

end GraphFeed
