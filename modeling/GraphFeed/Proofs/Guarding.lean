import GraphFeed.Template.Expansion

/-!
# What comes to rest, and how

The phase of fields sweeps until nothing happens. Its first sweep does all the work: what the others
do can be said without them. `guarded` puts a guard in front of every live brace of some cells, and

* `sweep_of_noTemplate`: where no live brace is of the template, a sweep does just that;
* `settle_of_error` and `settle_of_ok`: the phase of fields fails as its first sweep does, and otherwise
  ends with the cells of its first sweep, `guarded`.

`sweep_forall` is how properties of single cells come through a sweep: what holds of guards, of data
and of what the filler takes over from the template holds of all cells in the end.
-/

namespace GraphFeed

open Buffer (Cell)

/-! ## 1. Properties of cells -/

/-- What is taken over from an interior keeps a property of its cells. -/
def Filler.Keeps (filler : Filler) (P : Cell → Prop) : Prop :=
  ∀ (filled : Nat) (brace : Cell) (interior cells : List Cell) (trace : List Happening),
    filler.fill filled brace interior = (trace, .ok (.template cells)) →
      (∀ c ∈ interior, P c) → ∀ c ∈ cells, P c

/-- Data is put in with a property. -/
def HoldsOfData (P : Cell → Prop) : Prop := ∀ c : CodePoint, P ⟨⟨c, none⟩, some .resolved⟩

theorem HoldsOfData.ofText {P : Cell → Prop} (h : HoldsOfData P) (t : Text) :
    ∀ c ∈ Cell.ofText .resolved t, P c := by
  intro c hc
  obtain ⟨d, _, rfl⟩ := List.mem_map.mp hc
  exact h d

/-- **One step keeps a property of cells.** -/
theorem resolveBrace_forall {P : Cell → Prop} {phase : Phase} {filler : Filler}
    (hguard : P guardCell) (hdata : HoldsOfData P) (hfill : filler.Keeps P) {filled : Nat}
    {done rest : List Cell} {c : Cell} {trace : List Happening} {f : Front}
    (hdone : ∀ d ∈ done, P d) (hrest : ∀ d ∈ c :: rest, P d)
    (h : resolveBrace phase filler filled done c rest = (trace, .ok f)) :
    (∀ d ∈ f.done, P d) ∧ ∀ d ∈ f.rest, P d := by
  obtain ⟨_, _, _, _, rfl⟩ | ⟨_, interior, after, filling, hscan, hput, rfl⟩ := resolveBrace_cases h
  · refine ⟨fun d hd => ?_, fun d hd => hrest d (List.mem_cons_of_mem _ hd)⟩
    rcases List.mem_cons.mp hd with rfl | hd
    · exact hrest d List.mem_cons_self
    · rcases List.mem_cons.mp hd with rfl | hd
      · exact hguard
      · exact hdone d hd
  · obtain ⟨close, _, hitems⟩ := Brace.scan_closed _ _ _ _ _ _ hscan
    have hinterior : ∀ d ∈ interior, P d := fun d hd =>
      hrest d (List.mem_cons_of_mem _ (by rw [hitems]; exact List.mem_append_left _ hd))
    have hafter : ∀ d ∈ after, P d := fun d hd =>
      hrest d (List.mem_cons_of_mem _
        (by rw [hitems]; exact List.mem_append_right _ (List.mem_cons_of_mem _ hd)))
    cases filling with
    | data value =>
      refine ⟨fun d hd => ?_, hafter⟩
      rcases List.mem_append.mp hd with hd | hd
      · exact hdata.ofText value d (List.mem_reverse.mp hd)
      · exact hdone d hd
    | template cells =>
      refine ⟨hdone, fun d hd => ?_⟩
      rcases List.mem_append.mp hd with hd | hd
      · exact hfill _ _ _ _ _ hput hinterior d hd
      · exact hafter d hd

/-- **A sweep keeps a property of cells**, also when a failure ends it. -/
theorem sweep_forall {P : Cell → Prop} {phase : Phase} {filler : Filler} {spare : List Mark}
    (hguard : P guardCell) (hdata : HoldsOfData P) (hfill : filler.Keeps P) (filled : Nat)
    (done rest : List Cell) (hdone : ∀ d ∈ done, P d) (hrest : ∀ d ∈ rest, P d) :
    ∀ d ∈ (sweep phase filler spare filled done rest).state, P d := by
  have ended : ∀ done rest : List Cell, (∀ d ∈ done, P d) → (∀ d ∈ rest, P d) →
      ∀ d ∈ done.reverse ++ rest, P d := by
    intro done rest hdone hrest d hd
    rcases List.mem_append.mp hd with hd | hd
    · exact hdone d (List.mem_reverse.mp hd)
    · exact hrest d hd
  fun_induction sweep phase filler spare filled done rest with
  | case1 filled done => exact fun d hd => hdone d (List.mem_reverse.mp hd)
  | case2 => exact ended _ _ hdone hrest
  | case3 filled done c rest _ ih =>
    refine ih (fun d hd => ?_) fun d hd => hrest d (List.mem_cons_of_mem _ hd)
    rcases List.mem_cons.mp hd with rfl | hd
    · exact hrest d List.mem_cons_self
    · exact hdone d hd
  | case4 => exact ended _ _ hdone hrest
  | case5 filled done c rest _ trace f hr _ ih =>
    obtain ⟨hd, hr⟩ := resolveBrace_forall hguard hdata hfill hdone hrest hr
    exact ih hd hr

theorem commandFiller_keeps (runner : Runner) (P : Cell → Prop) : (commandFiller runner).Keeps P := by
  intro filled brace interior cells trace h
  obtain ⟨_, _, _, hf⟩ := commandFiller_cases h
  cases hf

/-- What fields leave to read is a fallback. -/
theorem fieldFiller_template {s : Splitter} {record : Record} {filled : Nat} {brace : Cell}
    {interior cells : List Cell} {trace : List Happening}
    (h : (fieldFiller s record).fill filled brace interior = (trace, .ok (.template cells))) :
    ∃ p, Placeholder.ofInterior (Cell.text interior) = .ok p ∧ p.value s record = .ok none ∧
      cells = p.fallbackCells interior := by
  obtain ⟨p, hp, _, ⟨_, _, hf⟩ | ⟨hv, hf⟩⟩ := fieldFiller_cases h
  · cases hf
  · cases hf
    exact ⟨p, hp, hv, rfl⟩

theorem fieldFiller_keeps_mark (s : Splitter) (record : Record) :
    (fieldFiller s record).Keeps fun c => c.mark.isSome := by
  intro filled brace interior cells trace h _ c hc
  obtain ⟨p, _, _, rfl⟩ := fieldFiller_template h
  rw [Placeholder.mark_of_mem_fallbackCells hc]
  rfl

/-- Marked cells stay marked. -/
theorem allMarked_sweep {phase : Phase} {filler : Filler} {spare : List Mark}
    (hfill : filler.Keeps fun c => c.mark.isSome) {cells : List Cell} (h : Cell.AllMarked cells) :
    Cell.AllMarked (sweep phase filler spare 0 [] cells).state :=
  sweep_forall (P := fun c => c.mark.isSome) rfl (fun _ => rfl) hfill 0 [] cells
    (fun _ hd => absurd hd List.not_mem_nil) h

/-! ## 2. Guards in front of live braces -/

/-- The cells with a guard in front of each live brace. -/
def guarded (phase : Phase) (before : Option Cell) : List Cell → List Cell
  | [] => []
  | c :: rest =>
    if phase.live before c rest.head? then guardCell :: c :: guarded phase (some c) rest
    else c :: guarded phase (some c) rest

/-- Guards can be taken out again. -/
theorem unguarded_guarded (phase : Phase) : ∀ (cells : List Cell) (before : Option Cell),
    Cell.unguarded (guarded phase before cells) = Cell.unguarded cells
  | [], _ => rfl
  | c :: rest, before => by
    have ih := unguarded_guarded phase rest (some c)
    unfold Cell.unguarded at ih ⊢
    rw [guarded]
    split
    · rw [List.filter_cons_of_neg (by decide), List.filter_cons, List.filter_cons, ih]
    · rw [List.filter_cons, List.filter_cons, ih]

/-- Calm cells get no guard. -/
theorem guarded_of_calm {phase : Phase} : ∀ {cells : List Cell} {before : Option Cell},
    phase.hasLive Phase.anyCell before cells = false → guarded phase before cells = cells
  | [], _, _ => rfl
  | c :: rest, before, h => by
    obtain ⟨hc, hrest⟩ := Bool.or_eq_false_iff.mp h
    have hlive : phase.live before c rest.head? = false := by
      rwa [Phase.anyCell, Bool.and_true] at hc
    rw [guarded, hlive, guarded_of_calm hrest]
    rfl

/-- A property of cells that guards have is kept by guarding. -/
theorem forall_guarded {P : Cell → Prop} (hguard : P guardCell) {phase : Phase} :
    ∀ {cells : List Cell} {before : Option Cell}, (∀ c ∈ cells, P c) →
      ∀ c ∈ guarded phase before cells, P c
  | [], _, h => h
  | c :: rest, before, h => by
    have hrest : ∀ d ∈ guarded phase (some c) rest, P d :=
      forall_guarded hguard fun d hd => h d (List.mem_cons_of_mem _ hd)
    have hcons := List.forall_mem_cons.mpr ⟨h c List.mem_cons_self, hrest⟩
    rw [guarded]
    split
    · exact List.forall_mem_cons.mpr ⟨hguard, hcons⟩
    · exact hcons

theorem allMarked_guarded {phase : Phase} {cells : List Cell} {before : Option Cell}
    (h : Cell.AllMarked cells) : Cell.AllMarked (guarded phase before cells) :=
  forall_guarded (P := fun c => c.mark.isSome) rfl h

/-- Behind a marked cell it can be told whether a brace is live. -/
theorem Phase.isLive_eq_ok (phase : Phase) {before : Option Cell} (c : Cell) (next : Option Cell)
    (h : ∀ b ∈ before, b.mark.isSome) :
    phase.isLive before c next = .ok (phase.live before c next) := by
  unfold live
  split
  · rename_i b hb
    exact hb
  · rename_i e he
    exfalso
    unfold isLive unescapedAfter at he
    split at he
    · cases he
    · split at he
      · cases he
      · cases before with
        | none => cases he
        | some b =>
          obtain ⟨m, hm⟩ := Option.isSome_iff_exists.mp (h b rfl)
          simp only [hm] at he
          split at he
          · rename_i hu
            split at hu <;> cases hu
          · cases he

/-- **Where no live brace is of the template, a sweep puts guards in and does nothing else.** -/
theorem sweep_of_noTemplate (phase : Phase) (filler : Filler) (spare : List Mark) (filled : Nat)
    (done rest : List Cell) (hdone : ∀ b ∈ done.head?, b.mark.isSome) (hrest : Cell.AllMarked rest)
    (h : phase.hasLive Phase.ofTemplate done.head? rest = false) :
    (sweep phase filler spare filled done rest).state
        = done.reverse ++ guarded phase done.head? rest ∧
      (sweep phase filler spare filled done rest).error = none := by
  induction rest generalizing filled done with
  | nil => simp [guarded]
  | cons c rest ih =>
    obtain ⟨hc, hr⟩ := Bool.or_eq_false_iff.mp h
    have hlive := Phase.isLive_eq_ok phase c rest.head? hdone
    have hmark : ∀ b ∈ some c, b.mark.isSome := by
      rintro b ⟨⟩
      exact hrest c List.mem_cons_self
    have hmarks : Cell.AllMarked rest := fun d hd => hrest d (List.mem_cons_of_mem _ hd)
    cases hl : phase.live done.head? c rest.head? with
    | false =>
      rw [hl] at hlive
      rw [sweep_pass hlive, guarded, hl, if_neg Bool.false_ne_true]
      have hi := ih filled (c :: done) hmark hmarks hr
      rwa [List.head?_cons, List.reverse_cons, List.append_assoc, List.singleton_append] at hi
    | true =>
      rw [hl] at hlive hc
      obtain ⟨m, hm⟩ := Option.isSome_iff_exists.mp (hrest c List.mem_cons_self)
      have hne : m ≠ .trusted := by
        rintro rfl
        simp [Phase.ofTemplate, hm] at hc
      have hguard : resolveBrace phase filler filled done c rest
          = ([.blocked phase done.length], .ok ⟨filled, c :: guardCell :: done, rest⟩) := by
        unfold resolveBrace
        rw [hm]
        cases m with
        | trusted => exact absurd rfl hne
        | resolved => rfl
        | guarding => rfl
      rw [sweep_resolve hlive hguard, guarded, hl, if_pos rfl]
      have hi := ih filled (c :: guardCell :: done) hmark hmarks hr
      rw [List.head?_cons, List.reverse_cons, List.reverse_cons, List.append_assoc,
        List.append_assoc] at hi
      exact hi

/-! ## 3. The phase of fields -/

/-- A sweep that meets no brace leaves all as it is, and no brace is live. -/
theorem sweep_of_trace_nil {phase : Phase} {filler : Filler} {spare : List Mark} {filled : Nat}
    {done rest : List Cell} (ht : (sweep phase filler spare filled done rest).trace = [])
    (he : (sweep phase filler spare filled done rest).error = none) :
    (sweep phase filler spare filled done rest).state = done.reverse ++ rest ∧
      phase.hasLive Phase.anyCell done.head? rest = false := by
  fun_induction sweep phase filler spare filled done rest with
  | case1 => simp [Phase.hasLive]
  | case2 => cases he
  | case3 filled done c rest hl ih =>
    obtain ⟨hs, hcalm⟩ := ih ht he
    rw [List.reverse_cons, List.append_assoc, List.singleton_append] at hs
    refine ⟨hs, ?_⟩
    rw [Phase.hasLive, List.head?_cons] at *
    rw [hcalm]
    simp [Phase.live, hl]
  | case4 => cases he
  | case5 => simp at ht

theorem settle_of_error {filler : Filler} {spare : List Mark} {cells : List Cell} {e : Error}
    (h : (sweep .fields filler spare 0 [] cells).error = some e) :
    settle filler spare cells = sweep .fields filler spare 0 [] cells := by
  rw [settle]
  simp [h]

/-- Where no live brace is of the template, the phase of fields puts guards in. -/
theorem settle_of_noTemplate {filler : Filler} (spare : List Mark) {cells : List Cell}
    (hm : Cell.AllMarked cells) (h : Phase.fields.hasLive Phase.ofTemplate none cells = false) :
    (settle filler spare cells).state = guarded .fields none cells ∧
      (settle filler spare cells).error = none := by
  obtain ⟨hs, he⟩ := sweep_of_noTemplate .fields filler spare 0 [] cells
    (by simp) hm h
  rw [List.reverse_nil, List.nil_append, List.head?_nil] at hs
  have hcalm := hasLive_sweep filler spare 0 [] cells trivial h he
  -- the sweep that follows meets no brace any more
  have hlast := trace_sweep_eq_nil filler spare .fields 0 [] _ hcalm
  rw [settle]
  split
  · rw [settle, dif_neg fun hn => hn.2 hlast, Progress.state_after, Progress.error_after]
    obtain ⟨hs', he'⟩ := sweep_of_noTemplate .fields filler spare 0 [] _ (by simp)
      (hs ▸ allMarked_guarded hm) (hasLive_sweep_template filler spare 0 [] cells trivial he)
    rw [List.reverse_nil, List.nil_append, List.head?_nil, guarded_of_calm hcalm, hs] at hs'
    exact ⟨hs ▸ hs', he'⟩
  · exact ⟨hs, he⟩

/-- **The phase of fields ends with the cells of its first sweep, guarded.** -/
theorem settle_of_ok {filler : Filler} (spare : List Mark) {cells : List Cell}
    (hfill : filler.Keeps fun c => c.mark.isSome) (hm : Cell.AllMarked cells)
    (h : (sweep .fields filler spare 0 [] cells).error = none) :
    (settle filler spare cells).state
        = guarded .fields none (sweep .fields filler spare 0 [] cells).state ∧
      (settle filler spare cells).error = none := by
  rw [settle]
  split
  · rw [Progress.state_after, Progress.error_after]
    exact settle_of_noTemplate spare (allMarked_sweep hfill hm)
      (hasLive_sweep_template filler spare 0 [] cells trivial h)
  · rename_i hn
    have ht : (sweep .fields filler spare 0 [] cells).trace = [] :=
      Classical.byContradiction fun hne => hn ⟨h, hne⟩
    obtain ⟨hs, hcalm⟩ := sweep_of_trace_nil ht h
    rw [List.reverse_nil, List.nil_append] at hs
    exact ⟨by rw [hs]; exact (guarded_of_calm hcalm).symm, h⟩

theorem allMarked_settle {filler : Filler} (spare : List Mark) {cells : List Cell}
    (hfill : filler.Keeps fun c => c.mark.isSome) (hm : Cell.AllMarked cells) :
    Cell.AllMarked (settle filler spare cells).state := by
  cases h : (sweep .fields filler spare 0 [] cells).error with
  | none =>
    rw [(settle_of_ok spare hfill hm h).1]
    exact allMarked_guarded (allMarked_sweep hfill hm)
  | some e =>
    rw [settle_of_error h]
    exact allMarked_sweep hfill hm

/-! ## 4. No commands -/

/-- A step over fields runs no command. -/
theorem calls_resolveField (s : Splitter) (record : Record) (filled : Nat) (done : List Cell) (c : Cell)
    (rest : List Cell) :
    (resolveBrace .fields (fieldFiller s record) filled done c rest).1.filterMap Happening.call?
      = [] := by
  refine List.filterMap_eq_nil_iff.mpr ?_
  exact resolveBrace_reports (by rfl)
    (fun _ => fieldFiller_reports (fun _ => rfl) (fun _ => rfl) s record filled c) rest

theorem calls_sweepFields (s : Splitter) (record : Record) (spare : List Mark) (filled : Nat)
    (done rest : List Cell) :
    (sweep .fields (fieldFiller s record) spare filled done rest).trace.filterMap Happening.call?
      = [] := by
  fun_induction sweep .fields (fieldFiller s record) spare filled done rest with
  | case1 => rfl
  | case2 => rfl
  | case3 filled done c rest hl ih => exact ih
  | case4 filled done c rest hl trace e hr =>
    have hcalls := calls_resolveField s record filled done c rest
    rw [hr] at hcalls
    exact hcalls
  | case5 filled done c rest hl trace f hr _ ih =>
    have hcalls := calls_resolveField s record filled done c rest
    rw [hr] at hcalls
    rw [Progress.trace_after, List.filterMap_append, ih, List.append_nil, List.filterMap_append]
    show trace.filterMap Happening.call? ++ [] = []
    rw [List.append_nil, hcalls]

/-- The phase of fields runs no command. -/
theorem calls_settle (s : Splitter) (record : Record) (spare : List Mark) (cells : List Cell) :
    (settle (fieldFiller s record) spare cells).trace.filterMap Happening.call? = [] := by
  fun_induction settle (fieldFiller s record) spare cells with
  | case1 cells p _ _ ih =>
    have hsurvey : (p.surveying spare).filterMap Happening.call? = [] := by
      unfold Progress.surveying
      split <;> rfl
    rw [Progress.trace_after, List.filterMap_append, List.filterMap_append, ih, hsurvey,
      calls_sweepFields]
    rfl
  | case2 cells p => exact calls_sweepFields s record spare 0 [] cells

/-- Nor is a command among what it does. -/
theorem commands_settle (s : Splitter) (record : Record) (spare : List Mark) (cells : List Cell) :
    (settle (fieldFiller s record) spare cells).trace.filterMap Happening.command? = [] := by
  have hlength := Happening.length_commands (settle (fieldFiller s record) spare cells).trace
  rw [calls_settle] at hlength
  exact List.eq_nil_of_length_eq_zero hlength

/-! ## 5. The whole expansion -/

theorem resolveFields_ofTemplate (s : Splitter) (record : Record) (template : Text) :
    resolveFields s record (.ofTemplate template)
      = (settle (fieldFiller s record) [] (Cell.ofTemplate template)).onBuffer [] := by
  rw [resolveFields, Buffer.spareMarks_ofTemplate, Buffer.cells_ofTemplate]

/-- **An expansion on cells alone**: the phase of fields, one sweep over commands, and the cells
    that are no guards. -/
theorem expand_eq (s : Splitter) (runner : Runner) (template : Text) (record : Record) :
    expand s runner template record =
      (let p := settle (fieldFiller s record) [] (Cell.ofTemplate template)
       match p.error with
       | some e => ⟨p.trace, .error e⟩
       | none =>
         let q := sweep .commands (commandFiller runner) [] 0 [] p.state
         match q.error with
         | some e => ⟨p.trace ++ q.trace, .error e⟩
         | none => ⟨p.trace ++ q.trace, .ok (Cell.text (Cell.unguarded q.state))⟩) := by
  have hp : Cell.AllMarked (settle (fieldFiller s record) [] (Cell.ofTemplate template)).state :=
    allMarked_settle [] (fieldFiller_keeps_mark s record) (Cell.allMarked_ofTemplate template)
  rw [expand, Expansion.ofFields, resolveFields_ofTemplate]
  generalize settle (fieldFiller s record) [] (Cell.ofTemplate template) = p at hp ⊢
  have hq : Cell.AllMarked (sweep .commands (commandFiller runner) [] 0 [] p.state).state :=
    allMarked_sweep (commandFiller_keeps runner _) hp
  cases he : p.error with
  | some e => simp only [Progress.onBuffer, he]
  | none =>
    cases hf : (sweep .commands (commandFiller runner) [] 0 [] p.state).error with
    | some e =>
      simp only [Progress.onBuffer, resolveCommands, Buffer.cells_ofCells hp,
        Buffer.spareMarks_ofCells hp, he, hf]
    | none =>
      simp only [Progress.onBuffer, resolveCommands, Buffer.cells_ofCells hp,
        Buffer.spareMarks_ofCells hp, Buffer.cleanup_ofCells hq, he, hf]

/-- Where the phase of fields fails, no command is run. -/
theorem commands_expand_of_error {s : Splitter} {runner : Runner} {template : Text} {record : Record}
    (h : (settle (fieldFiller s record) [] (Cell.ofTemplate template)).error.isSome) :
    (expand s runner template record).commands = [] := by
  obtain ⟨e, he⟩ := Option.isSome_iff_exists.mp h
  rw [expand_eq]
  simp only [he]
  exact commands_settle s record [] _

/-- Otherwise commands and result are those of the sweep over commands. -/
theorem expand_of_ok {s : Splitter} {runner : Runner} {template : Text} {record : Record}
    {cells : List Cell}
    (he : (settle (fieldFiller s record) [] (Cell.ofTemplate template)).error = none)
    (hstate : (settle (fieldFiller s record) [] (Cell.ofTemplate template)).state = cells) :
    (expand s runner template record).commands
        = (sweep .commands (commandFiller runner) [] 0 [] cells).trace.filterMap Happening.command? ∧
      (expand s runner template record).result
        = (sweep .commands (commandFiller runner) [] 0 [] cells).outcome.map
            fun cells => Cell.text (Cell.unguarded cells) := by
  have hnone := commands_settle s record [] (Cell.ofTemplate template)
  rw [expand_eq]
  simp only [he, hstate, Progress.outcome]
  cases (sweep .commands (commandFiller runner) [] 0 [] cells).error with
  | none =>
    refine ⟨?_, rfl⟩
    rw [Expansion.commands, List.filterMap_append, hnone, List.nil_append]
  | some e =>
    refine ⟨?_, rfl⟩
    rw [Expansion.commands, List.filterMap_append, hnone, List.nil_append]

end GraphFeed
