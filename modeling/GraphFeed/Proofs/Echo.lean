import GraphFeed.Proofs.Conclusion

/-!
# What a run prints

A run that prints no answers of the database prints what it shows of its expansions, in the order of
the lines, and behind that at most the rows of the query at the end. With output `pipe` it shows each
line that it handles, that is, each line whose expansion is no fault of the work: a fault is listed at
the end of its batch, and the line is not shown at all.

* `Shows`: what a part of a run prints, and the lines of which it may list failures;
* `handle_shows`, `handleAll_shows`, `workOff_shows`, `workOffAll_shows`, `feed_shows`: the parts of
  the feeding, one from the other. `shownOf` and `listable` are what batches add up to;
* `conclude_shows`: what concludes a run;
* `run_shows`: **what a whole run prints and may list**;
* `echo_iff`: **all lines are echoed and failures are listed in their order just where no line that is
  read is a fault**.

That a fault is neither echoed nor listed in its place is seen in `faults_unechoed`.
-/

namespace GraphFeed.Run

open GraphFeed.Graph

variable {w : Surroundings} {p : Plan} {s s' s'' : State} {template : Text}

/-! ## 1. Parts of a run and what they print -/

/-- **What a part of a run shows**: it prints the given lines, keeps no answer for later, and lists
    failures of some of the given lines, in their order. -/
structure Shows (s s' : State) (shown : List Text) (lines : List (Option Line)) : Prop where
  printed : s'.printed = shown.reverse ++ s.printed
  pending : s'.pending = s.pending
  listed : ∃ listed, s'.failures = s.failures ++ listed ∧ (listed.map Failure.line).Sublist lines

namespace Shows

variable {shown shown' : List Text} {lines lines' : List (Option Line)}

theorem of_ledger (h : s'.ledger = s.ledger) : Shows s s' [] [] where
  printed := congrArg Ledger.printed h
  pending := congrArg Ledger.pending h
  listed := ⟨[], (congrArg Ledger.failures h).trans (List.append_nil _).symm, .slnil⟩

theorem trans (h : Shows s s' shown lines) (h' : Shows s' s'' shown' lines') :
    Shows s s'' (shown ++ shown') (lines ++ lines') where
  printed := by rw [h'.printed, h.printed, List.reverse_append, List.append_assoc]
  pending := h'.pending.trans h.pending
  listed := by
    obtain ⟨listed, hlisted, hlines⟩ := h.listed
    obtain ⟨listed', hlisted', hlines'⟩ := h'.listed
    refine ⟨listed ++ listed', by rw [hlisted', hlisted, List.append_assoc], ?_⟩
    rw [List.map_append]
    exact hlines.append hlines'

/-- What lists a failure. -/
theorem fail (s : State) (line : Option Line) (e : Error) : Shows s (s.fail line e) [] [line] where
  printed := rfl
  pending := rfl
  listed := ⟨[⟨line, e⟩], rfl, .refl _⟩

theorem failAll (errors : List (Line × Error)) (s : State) :
    Shows s (s.failAll errors) [] (errors.map fun d => some d.1) := by
  induction errors generalizing s with
  | nil => exact .of_ledger rfl
  | cons d errors ih => exact (fail s (some d.1) d.2).trans (ih (s.fail (some d.1) d.2))

/-- What might have listed something more. -/
theorem mono (h : Shows s s' shown lines) (hlines : lines.Sublist lines') :
    Shows s s' shown lines' where
  printed := h.printed
  pending := h.pending
  listed := by
    obtain ⟨listed, hlisted, hsub⟩ := h.listed
    exact ⟨listed, hlisted, hsub.trans hlines⟩

end Shows

/-- Lines can be handled: nothing is sent, or statements can be sent. -/
def Able (p : Plan) (k : Link) : Prop :=
  p.simulated = true ∨ p.simulated = false ∧ ∃ kind, Ready kind k

/-! ## 2. One expansion -/

/-- To list a failure prints nothing. -/
theorem printed_listing (line : Option Line) (r : Ending) :
    (r.listing line).2.printed = r.2.printed ∧ (r.listing line).2.pending = r.2.pending := by
  obtain ⟨e | _, s⟩ := r
  · unfold Ending.listing
    dsimp only
    split <;> exact ⟨rfl, rfl⟩
  · exact ⟨rfl, rfl⟩

section Feeding

variable (houtput : p.output ≠ .json)

include houtput

/-- Nor does a statement that is sent. -/
theorem printed_post (st : Statement) (s : State) :
    (post w p st s).2.printed = s.printed ∧ (post w p st s).2.pending = s.pending := by
  unfold post
  rcases s.connection.run w.server st.query st.parameters with ⟨e | rows, c⟩
  · exact ⟨rfl, rfl⟩
  · have hledger := ledger_answer { s with connection := c } houtput rows
    exact ⟨congrArg Ledger.printed hledger, congrArg Ledger.pending hledger⟩

/-- **A statement that is handled prints nothing**, and lists at most a failure of its line. -/
theorem send_shows (hable : Able p s.link) (st : Statement) (line : Option Line) :
    ((send w p st s).listing line).1 = .ok () ∧
      Shows s ((send w p st s).listing line).2 [] [line] ∧
      Able p ((send w p st s).listing line).2.link := by
  rcases hable with hsimulated | ⟨hsimulated, kind, hready⟩
  · have hsend : send w p st s = .well { s.note .info (statementNotice st) with
        expressions := s.expressions + 1 } := by rw [send, if_pos hsimulated]
    rw [hsend]
    exact ⟨rfl, ⟨rfl, rfl, [], (List.append_nil _).symm, List.nil_sublist _⟩, .inl hsimulated⟩
  · rw [send_eq hsimulated]
    let noted := s.noteIf (p.isAbove 1) .debug (statementNotice st)
    have hnoted : Shows s noted [] [] := .of_ledger (ledger_noteIf ..)
    have hlink : noted.link = s.link := link_noteIf ..
    dsimp only
    split
    · exact ⟨rfl, hnoted.mono (List.nil_sublist _), .inr ⟨hsimulated, kind, hlink ▸ hready⟩⟩
    · obtain ⟨fate, _, _, hok, haccount⟩ :=
        post_account (w := w) (p := p) (s := noted) (hlink ▸ hready) st line
      obtain ⟨hprinted, hpending⟩ := printed_post (w := w) houtput st noted
      obtain ⟨hprinted', hpending'⟩ := printed_listing line (post w p st noted)
      refine ⟨hok, hnoted.trans ⟨hprinted'.trans hprinted, hpending'.trans hpending,
        _, haccount.failures, ?_⟩, .inr ⟨hsimulated, kind,
          hready.of_eq (by rw [haccount.session, hlink]) (by rw [haccount.transaction, hlink])⟩⟩
      -- the one entry of the tale is about the line
      cases hfate : fate.error? with
      | none =>
        rw [List.filterMap_cons_none (by rw [Entry.failure?, hfate]; rfl)]
        exact .cons _ .slnil
      | some e => rw [List.filterMap_cons_some (by rw [Entry.failure?, hfate]; rfl)]; exact .refl _

/-- **An expansion that is handled prints what is shown of it**, and lists at most a failure of its
    line. -/
theorem handle_shows (hable : Able p s.link) (x : Expanded) :
    (handle w p x s).1 = .ok () ∧
      Shows s (handle w p x s).2 (shownLines p.output x).reverse [x.line] ∧
      Able p (handle w p x s).2.link := by
  have hledger := ledger_shown s p x
  have hshown : Shows s (s.shown p x) (shownLines p.output x).reverse [] := by
    refine ⟨?_, congrArg Ledger.pending hledger, [], ?_, .slnil⟩
    · rw [List.reverse_reverse]
      exact congrArg Ledger.printed hledger
    · rw [List.append_nil]
      exact congrArg Ledger.failures hledger
  have hableShown : Able p (s.shown p x).link := by rwa [link_shown]
  cases hx : x.instruction.bind (compile w p) with
  | error e =>
    rw [handle_of_error hx]
    have hfailed := hshown.trans (.fail (s.shown p x) x.line e)
    rw [List.append_nil] at hfailed
    exact ⟨rfl, hfailed, hableShown⟩
  | ok statement? =>
    cases statement? with
    | none =>
      obtain ⟨notice, hhandle⟩ := handle_of_none (w := w) hx s
      have hlisted := (hshown.mono (List.nil_sublist [x.line])).listed
      rw [hhandle]
      exact ⟨rfl, ⟨hshown.printed, hshown.pending, hlisted⟩, hableShown⟩
    | some st =>
      obtain ⟨hok, hsent, hableSent⟩ := send_shows (w := w) houtput hableShown st x.line
      rw [handle_of_some hx]
      have hboth := hshown.trans hsent
      rw [List.append_nil] at hboth
      exact ⟨hok, hboth, hableSent⟩

/-! ## 3. Lines -/

omit houtput in
/-- What is shown of expansions that are handled in order. -/
def shownOf (p : Plan) (xs : List Expanded) : List Text :=
  xs.flatMap fun x => (shownLines p.output x).reverse

/-- **Expansions that are handled in order are shown in order.** -/
theorem handleAll_shows (xs : List Expanded) : ∀ {s : State}, Able p s.link →
    (handleAll w p xs s).1 = .ok () ∧
      Shows s (handleAll w p xs s).2 (shownOf p xs) (xs.map Expanded.line) ∧
      Able p (handleAll w p xs s).2.link := by
  induction xs with
  | nil => exact fun hable => ⟨rfl, .of_ledger rfl, hable⟩
  | cons x xs ih =>
    intro s hable
    obtain ⟨hok, hone, hableOne⟩ := handle_shows (w := w) houtput hable x
    obtain ⟨hokRest, hrest, hableRest⟩ := ih hableOne
    rw [handleAll, Ending.andThen_of_ok hok]
    exact ⟨hokRest, hone.trans hrest, hableRest⟩

omit houtput in
/-- The lines of which batches may list failures: for each batch those that are handled, and behind
    them the faults. -/
def listable (w : Surroundings) (p : Plan) (template : Text) (parts : List (List Line)) :
    List (Option Line) :=
  parts.flatMap fun batch => (expansions w p template batch).map Expanded.line
    ++ (batch.filterMap (Batch.failure? (expandOne w p template))).map fun d => some d.1

/-- **A batch of lines is shown as far as it expands.** -/
theorem workOff_shows {n : Int} (hn : p.batches.size.index = .ok n) (hpos : 0 < n)
    (hworkers : p.batches.hasWorkers = true) (hable : Able p s.link) (template : Text)
    (number : Nat) (batch : List Line) :
    (workOff w p template number batch s).1 = .ok () ∧
      Shows s (workOff w p template number batch s).2 (shownOf p (expansions w p template batch))
        (listable w p template [batch]) ∧
      Able p (workOff w p template number batch s).2.link := by
  obtain ⟨report, hreport⟩ := Batch.process_of_hasWorkers (expandOne w p template) hn hpos
    hworkers (fun _ => w.orders number) batch
  obtain ⟨hresults, herrors⟩ := Batch.report_process hn (Int.le_of_lt hpos) hreport
  unfold workOff
  simp only [hreport]
  generalize hs' : ({ s.recordAll _ with commands := _ } : State) = s'
  have hlogged : Shows s s' [] [] := by
    rw [← hs']
    exact .of_ledger (ledger_recordAll ..)
  have hlink : s'.link = s.link := by
    rw [← hs']
    exact link_recordAll ..
  obtain ⟨hok, hhandled, hableHandled⟩ :=
    handleAll_shows (w := w) houtput report.results (hlink ▸ hable)
  have hfaults := Shows.failAll report.errors (handleAll w p report.results s').2
  rw [Ending.andThen_of_ok hok]
  refine ⟨rfl, ?_, ?_⟩
  · have hall := hlogged.trans (hhandled.trans hfaults)
    rw [List.append_nil] at hall
    rw [listable, List.flatMap_singleton, ← herrors,
      show expansions w p template batch = report.results from hresults.symm]
    exact hall
  · rw [Ending.well, link_failAll]
    exact hableHandled

theorem workOffAll_shows {n : Int} (hn : p.batches.size.index = .ok n) (hpos : 0 < n)
    (hworkers : p.batches.hasWorkers = true) (template : Text) (parts : List (List Line)) :
    ∀ {s : State}, Able p s.link → ∀ number : Nat,
      Shows s (workOffAll w p template number parts s).2
        (shownOf p (expansions w p template parts.flatten)) (listable w p template parts) := by
  induction parts with
  | nil => exact fun _ _ => .of_ledger rfl
  | cons batch parts ih =>
    intro s hable number
    obtain ⟨hok, hone, hableOne⟩ :=
      workOff_shows (w := w) houtput hn hpos hworkers hable template number batch
    have hboth := hone.trans (ih hableOne (number + 1))
    rw [workOffAll, Ending.andThen_of_ok hok]
    rw [listable, List.flatMap_singleton] at hboth
    rw [listable, List.flatMap_cons, List.flatten_cons, expansions, List.filterMap_append, shownOf,
      List.flatMap_append]
    exact hboth

/-- **The lines that a run reads are shown as far as they expand.** `parts` are its batches. -/
theorem feed_shows (hable : Able p s.link) (htemplate : template ≠ []) (lines : List Text) :
    ∃ parts : List (List Line), parts.flatten = readLines p lines ∧
      Shows s (feed w p template (some lines) s).2
        (shownOf p (expansions w p template (readLines p lines))) (listable w p template parts) := by
  have hempty : template.isEmpty = false := List.isEmpty_eq_false_iff.mpr htemplate
  unfold feed
  simp only [hempty, Bool.false_eq_true, if_false]
  generalize hs' : s.noteIf (p.isAbove 0) .debug _ = s'
  have hnoted : Shows s s' [] [] := by
    rw [← hs']
    exact .of_ledger (ledger_noteIf ..)
  have hlink : s'.link = s.link := by
    rw [← hs']
    exact link_noteIf ..
  cases hbatches : makesBatches p with
  | true =>
    obtain ⟨n, parts, hn, hpos, hworkers, hflatten, hwork⟩ :=
      processLines_of_makesBatches hbatches w template lines s'
    have hread : readLines p lines = parts.flatten := by rw [readLines, if_pos hbatches, hflatten]
    rw [hread, hwork]
    exact ⟨parts, rfl, hnoted.trans
      (workOffAll_shows houtput hn hpos hworkers template parts (hlink ▸ hable) 0)⟩
  | false =>
    obtain ⟨_, hledger, _⟩ := processLines_of_noBatches (w := w) hbatches template lines s'
    rw [readLines, if_neg (by rw [hbatches]; decide)]
    exact ⟨[], rfl, hnoted.trans (.of_ledger hledger)⟩

end Feeding

/-! ## 4. Beginning and end -/

/-- Opening the connection prints nothing. -/
theorem ledger_openGraph (s : State) : (openGraph w p s).2.ledger = s.ledger := by
  cases hsimulated : p.simulated with
  | true => rw [openGraph, if_pos hsimulated]; rfl
  | false => exact (openGraph_opening hsimulated s).1

/-- **A run that comes to its lines can handle them**, and has printed nothing before. -/
theorem run_of_able (hopens : Opens w p) (template : Text) (lines : Option (List Text)) :
    ∃ s : State, Able p s.link ∧ s.ledger = (State.start p.address).ledger ∧
      run w p template lines = conclude w p (feed w p template lines s) := by
  unfold run body conclude
  dsimp only
  rw [hopens.verbosity]
  dsimp only
  generalize hs' :
    ((State.start p.address).noteIf p.simulated .info _).noteIf (p.isAbove 0) .debug _ = s'
  have halike : Alike (.start p.address) s' := by
    rw [← hs']
    exact (Alike.noted ..).trans (Alike.noted ..)
  have hledger : s'.ledger = (State.start p.address).ledger := by
    rw [← hs', ledger_noteIf, ledger_noteIf]
  have hlink : s'.link = ⟨none, none, []⟩ := by
    rw [← hs', link_noteIf, link_noteIf]
    rfl
  have hok : (openGraph w p s').1 = .ok () := (halike.openGraph.1).trans hopens.connection
  refine ⟨(openGraph w p s').2, ?_, (ledger_openGraph s').trans hledger, ?_⟩
  · cases hsimulated : p.simulated with
    | true => exact .inl hsimulated
    | false =>
      have hopened := openGraph_opened hsimulated hlink (tally_of_ledger hledger) hok
      refine .inr ⟨hsimulated, ?_⟩
      cases htransactional : p.transactional with
      | true => exact ⟨_, hopened.ready_inside htransactional⟩
      | false => exact ⟨_, hopened.ready_alone htransactional⟩
  · rw [Ending.andThen_of_ok hok]

/-- The rows of the query at the end are wanted. -/
def ShowsRows (p : Plan) : Prop :=
  p.simulated = false ∧ p.endQuery.isSome = true ∧ p.showResults = true

/-- What is printed behind the lines is one line at most, and that only if the rows of the query at
    the end are wanted. -/
structure Trailing (p : Plan) (rows : List Text) : Prop where
  length : rows.length ≤ 1
  wanted : rows ≠ [] → ShowsRows p

theorem Trailing.nil (p : Plan) : Trailing p [] := ⟨Nat.zero_le 1, fun h => absurd rfl h⟩

theorem runEndQuery_shows (houtput : p.output ≠ .json) {last : Value}
    (hquery : p.endQuery = some last) (s : State) :
    ∃ rows, Trailing p rows ∧ Shows s (runEndQuery w p last s).2 rows [] := by
  unfold runEndQuery
  dsimp only
  generalize hs' : s.noteIf (p.isAbove 0) .debug _ = s'
  have hnoted : (logEndQuery p last s').2.ledger = s.ledger := by
    rw [ledger_logEndQuery, ← hs', ledger_noteIf]
  cases hlog : (logEndQuery p last s').1 with
  | error e =>
    rw [Ending.andThen_of_error hlog]
    exact ⟨[], .nil p, .of_ledger hnoted⟩
  | ok _ =>
    rw [Ending.andThen_of_ok hlog]
    generalize (logEndQuery p last s').2 = noted at hnoted
    have hsame : Shows s noted [] [] := .of_ledger hnoted
    split
    · exact ⟨[], .nil p, hsame⟩
    · rename_i hsimulated
      unfold postAlone
      rcases noted.connection.execute w.server last [] with ⟨e | rows, c⟩
      · exact ⟨[], .nil p, .of_ledger hnoted⟩
      · dsimp only [Ending.well]
        split
        · rename_i hwanted
          have hshow : p.showResults = true := by simpa [houtput] using hwanted
          refine ⟨[(Value.list rows).json], ⟨Nat.le_refl 1, fun _ => ⟨?_, ?_, hshow⟩⟩, ?_⟩
          · exact Bool.eq_false_iff.mpr hsimulated
          · rw [hquery]
            rfl
          · exact hsame.trans ⟨rfl, rfl, [], (List.append_nil _).symm, .slnil⟩
        · exact ⟨[], .nil p, .of_ledger hnoted⟩

theorem finish_shows (houtput : p.output ≠ .json) (hpending : s.pending = []) :
    ∃ rows, Trailing p rows ∧ Shows s (finish w p s).2 rows [] := by
  let committed := if usesTransaction p then s.onConnection fun c => c.commit w.server else .well s
  have hcommitted : committed.2.ledger = s.ledger := by
    dsimp only [committed]
    split <;> rfl
  change ∃ rows, Trailing p rows ∧ Shows s (Ending.andThen committed _).2 rows []
  cases hend : committed.1 with
  | error e =>
    rw [Ending.andThen_of_error hend]
    exact ⟨[], .nil p, .of_ledger hcommitted⟩
  | ok _ =>
    rw [Ending.andThen_of_ok hend]
    let summed := printPending (summarize w p committed.2)
    have hsummed : summed.ledger = s.ledger := by
      have hledger : (summarize w p committed.2).ledger = s.ledger :=
        (ledger_summarize ..).trans hcommitted
      have hnone : (summarize w p committed.2).pending = [] :=
        (congrArg Ledger.pending hledger).trans hpending
      dsimp only [summed]
      rw [printPending_eq, hnone, ← hledger]
      unfold State.ledger
      rw [hnone]
      rfl
    dsimp only
    cases hquery : p.endQuery with
    | none => exact ⟨[], .nil p, .of_ledger hsummed⟩
    | some last =>
      obtain ⟨rows, htrailing, hrows⟩ := runEndQuery_shows (w := w) houtput hquery summed
      exact ⟨rows, htrailing, (Shows.of_ledger hsummed).trans hrows⟩

theorem ledger_abort (s : State) : (abort w p s).ledger = s.ledger := by
  unfold abort
  split <;> rfl

/-- Recovering from a failure lists it, and prints nothing. -/
theorem recover_shows (r : Ending) : Shows r.2 (recover w p r).2 [] [none] := by
  obtain ⟨e | _, s⟩ := r
  · unfold recover
    dsimp only
    split
    · exact ⟨congrArg Ledger.printed (ledger_abort _), congrArg Ledger.pending (ledger_abort _),
        [⟨none, e⟩], congrArg Ledger.failures (ledger_abort _), .refl _⟩
    · exact (Shows.of_ledger rfl).mono (List.nil_sublist _)
  · exact (Shows.of_ledger rfl).mono (List.nil_sublist _)

/-- Closing the connection prints nothing. -/
theorem ledger_closing (r : Ending) : (closing w p r).2.ledger = r.2.ledger := by
  unfold closing State.onConnection
  split
  · rfl
  · dsimp only
    rcases r.2.connection.close w.server with ⟨e | _, c⟩ <;> rfl

/-- **What concludes a run prints the rows of the query at the end**, if they are wanted, and lists a
    failure of no line. -/
theorem conclude_shows (houtput : p.output ≠ .json) {r : Ending} (hpending : r.2.pending = []) :
    ∃ rows, Trailing p rows ∧ Shows r.2 (conclude w p r).2 rows [none] := by
  obtain ⟨rows, htrailing, hrows⟩ : ∃ rows, Trailing p rows ∧
      Shows r.2 (r.andThen fun s =>
        if s.failures.isEmpty then finish w p s else .well (abort w p s)).2 rows [] := by
    obtain ⟨e | _, s⟩ := r
    · exact ⟨[], .nil p, .of_ledger rfl⟩
    · rw [Ending.andThen_of_ok rfl]
      split
      · exact finish_shows houtput hpending
      · exact ⟨[], .nil p, .of_ledger (ledger_abort s)⟩
  have hrecovered := hrows.trans ((recover_shows (w := w) (p := p) _).trans
    (.of_ledger (ledger_closing (w := w) (p := p) _)))
  simp only [List.append_nil, List.nil_append] at hrecovered
  exact ⟨rows, htrailing, hrecovered⟩

/-! ## 5. Whole runs -/

/-- **A run prints what is shown of the lines that it reads**, in their order, and behind it at most
    the rows of the query at the end. `parts` are its batches. -/
theorem run_shows (houtput : p.output ≠ .json) (hopens : Opens w p) (htemplate : template ≠ [])
    (lines : List Text) : ∃ (parts : List (List Line)) (rows : List Text),
      parts.flatten = readLines p lines ∧ Trailing p rows ∧
      Shows (.start p.address) (run w p template (some lines)).2
        (shownOf p (expansions w p template (readLines p lines)) ++ rows)
        (listable w p template parts ++ [none]) := by
  obtain ⟨s, hable, hledger, hrun⟩ := run_of_able hopens template (some lines)
  have hopened : Shows (.start p.address) s [] [] := .of_ledger hledger
  obtain ⟨parts, hflatten, hfed⟩ := feed_shows (w := w) houtput hable htemplate lines
  have hpending : (feed w p template (some lines) s).2.pending = [] :=
    hfed.pending.trans hopened.pending
  obtain ⟨rows, htrailing, hconcluded⟩ := conclude_shows (w := w) houtput hpending
  rw [hrun]
  exact ⟨parts, rows, hflatten, htrailing, hopened.trans (hfed.trans hconcluded)⟩

/-- The line is handled: its expansion ends well, or by a failure that is reported. -/
def isHandled (w : Surroundings) (p : Plan) (template : Text) (line : Line) : Bool :=
  (expandOne w p template line).toBool

theorem line_of_expandOne {line : Line} {x : Expanded} (h : expandOne w p template line = .ok x) :
    x.line = some line := by
  unfold expandOne at h
  split at h
  · cases h
    rfl
  · split at h
    · cases h
      rfl
    · cases h

/-- The lines that are handled are those that the expansions are of. -/
theorem lines_of_expansions (lines : List Line) :
    (expansions w p template lines).map Expanded.line
      = (lines.filter (isHandled w p template)).map some := by
  induction lines with
  | nil => rfl
  | cons line lines ih =>
    cases hx : expandOne w p template line with
    | ok x =>
      rw [List.filter_cons_of_pos (by rw [isHandled, hx]; rfl), List.map_cons, ← ih, expansions,
        List.filterMap_cons_some (by rw [hx]; rfl), List.map_cons, line_of_expandOne hx]
      rfl
    | error e =>
      rw [List.filter_cons_of_neg (by rw [isHandled, hx]; exact Bool.false_ne_true), ← ih, expansions,
        List.filterMap_cons_none (by rw [hx]; rfl)]
      rfl

/-- With output `pipe` the lines themselves are shown. -/
theorem shownOf_pipe (hpipe : p.output = .pipe) (lines : List Line) :
    shownOf p (expansions w p template lines)
      = (lines.filter (isHandled w p template)).map Line.text := by
  have hshown : ∀ xs : List Expanded, shownOf p xs = (xs.map Expanded.line).flatMap fun line =>
      line.toList.map Line.text := by
    intro xs
    rw [List.flatMap_map]
    refine congrArg (List.flatMap · xs) (funext fun x => ?_)
    rw [shownLines, hpipe]
    cases x.instruction <;> cases x.line <;> rfl
  rw [hshown, lines_of_expansions, List.flatMap_map]
  exact (List.map_eq_flatMap ..).symm

/-- All lines are handled if every failure to expand one of them is reported. -/
theorem reports_iff {lines : List Line} :
    Reports w p template lines ↔ ∀ line ∈ lines, isHandled w p template line = true := by
  refine forall₂_congr fun line _ => ?_
  unfold isHandled expandOne
  cases (expansion w p template line).result with
  | ok instruction => exact ⟨fun _ => rfl, fun _ => nofun⟩
  | error e =>
    dsimp only
    by_cases hreported : e.isReported = true
    · rw [if_pos hreported]
      exact ⟨fun _ => rfl, fun _ e' he => Except.error.inj he ▸ hreported⟩
    · rw [if_neg hreported]
      exact ⟨fun h => absurd (h e rfl) hreported, fun h => absurd h Bool.false_ne_true⟩

/-! ## 6. Lines as they are printed -/

/-- A text as it is printed, with a line feed behind it. -/
def asLine (t : Text) : Text := t ++ [('\n' : CodePoint)]

/-- **Where a line is left out, less is printed.** -/
theorem length_flatMap_asLine {xs ys : List Text} (h : xs.Sublist ys) :
    (xs.flatMap asLine).length + ys.length ≤ (ys.flatMap asLine).length + xs.length := by
  induction h with
  | slnil => exact Nat.le_refl _
  | cons y _ ih =>
    rw [List.flatMap_cons, List.length_append, List.length_cons, asLine, List.length_append,
      List.length_singleton]
    omega
  | cons_cons y _ ih =>
    rw [List.flatMap_cons, List.flatMap_cons, List.length_append, List.length_append,
      List.length_cons, List.length_cons]
    omega

/-- So nothing has been left out if the same is printed. -/
theorem eq_of_flatMap_asLine {xs ys : List Text} (h : xs.Sublist ys)
    (heq : xs.flatMap asLine = ys.flatMap asLine) : xs = ys := by
  have hlength := length_flatMap_asLine h
  rw [heq] at hlength
  exact h.eq_of_length_le (by omega)

theorem texts_of_number (lines : List Text) :
    (number lines).map Line.text = lines.map Text.stripLineEnd := by
  rw [number, List.map_map]
  calc lines.zipIdx.map (Line.text ∘ fun d => ⟨d.2 + 1, d.1.stripLineEnd⟩)
      = (lines.zipIdx.map Prod.fst).map Text.stripLineEnd := by rw [List.map_map]; rfl
    _ = lines.map Text.stripLineEnd := by rw [List.zipIdx_map_fst]

/-- The numbers of lines ascend. -/
theorem ascending_number (lines : List Text) :
    ((number lines).map Line.number).Pairwise (· < ·) := by
  have hnumbers : (number lines).map Line.number = (List.range' 0 lines.length).map (· + 1) := by
    rw [number, List.map_map, ← List.zipIdx_map_snd, List.map_map]
    rfl
  rw [hnumbers, List.pairwise_map]
  exact (List.pairwise_lt_range' ..).imp fun h => Nat.succ_lt_succ h

theorem readLines_sublist (p : Plan) (lines : List Text) :
    (readLines p lines).Sublist (number lines) := by
  unfold readLines
  split
  · exact .refl _
  · exact List.nil_sublist _

/-- All lines are read if there are batches for them, or no lines. -/
theorem readLines_eq_number_iff {lines : List Text} :
    readLines p lines = number lines ↔ lines = [] ∨ makesBatches p = true := by
  unfold readLines
  split
  · rename_i hbatches
    exact ⟨fun _ => .inr hbatches, fun _ => rfl⟩
  · rename_i hbatches
    refine ⟨fun h => .inl ?_, fun h => ?_⟩
    · have hlength := congrArg List.length h
      rw [number, List.length_map, List.length_zipIdx] at hlength
      exact List.length_eq_zero_iff.mp hlength.symm
    · rw [h.resolve_right hbatches]
      rfl

/-- The numbers of the lines in the failures that are listed. -/
def State.lineNumbers (s : State) : List Nat := s.failures.filterMap fun f => f.line.map Line.number

/-- **Where no line is a fault, failures are listed in the order of their lines.** -/
theorem ascending_lineNumbers {parts : List (List Line)} {shown : List Text} {lines : List Text}
    (hflatten : parts.flatten = readLines p lines) (hreports : Reports w p template parts.flatten)
    (h : Shows (.start p.address) s shown (listable w p template parts ++ [none])) :
    s.lineNumbers.Pairwise (· < ·) := by
  have hlistable : listable w p template parts = parts.flatten.map some := by
    rw [List.map_flatten]
    refine congrArg List.flatten (List.map_congr_left fun batch hbatch => ?_)
    have hmine : Reports w p template batch := fun line hline =>
      hreports line (List.mem_flatten_of_mem hbatch hline)
    rw [hmine.noFaults, lines_of_expansions, List.filter_eq_self.mpr (reports_iff.mp hmine)]
    exact List.append_nil _
  obtain ⟨listed, hlisted, hlines⟩ := h.listed
  have hnumbers : s.lineNumbers = (listed.map Failure.line).filterMap (Option.map Line.number) := by
    rw [State.lineNumbers, hlisted, List.filterMap_map]
    rfl
  have hall : (listable w p template parts ++ [none]).filterMap (Option.map Line.number)
      = (readLines p lines).map Line.number := by
    rw [hlistable, hflatten, List.filterMap_append, List.filterMap_map, ← List.filterMap_eq_map]
    exact List.append_nil _
  have hsublist : s.lineNumbers.Sublist ((readLines p lines).map Line.number) := by
    rw [hnumbers, ← hall]
    exact hlines.filterMap _
  exact (ascending_number lines).sublist (hsublist.trans ((readLines_sublist p lines).map _))

/-- **All lines are echoed, and failures are listed in the order of their lines, just where all lines
    are read and none is a fault.** What is printed are the lines that are handled in any case, and
    behind them at most the rows of the query at the end. -/
theorem echo_iff (hpipe : p.output = .pipe) (hopens : Opens w p) (htemplate : template ≠ [])
    (lines : List Text) :
    let s := (run w p template (some lines)).2
    ∃ rows, Trailing p rows ∧
      s.output = ((readLines p lines).filter (isHandled w p template)).flatMap (fun l => asLine l.text)
        ++ rows.flatMap asLine ∧
      ((s.output = lines.flatMap (fun line => asLine line.stripLineEnd) ++ rows.flatMap asLine ∧
          s.lineNumbers.Pairwise (· < ·)) ↔
        (lines = [] ∨ makesBatches p = true) ∧ Reports w p template (number lines)) := by
  have houtput : p.output ≠ .json := by rw [hpipe]; decide
  obtain ⟨parts, rows, hflatten, htrailing, hshows⟩ := run_shows houtput hopens htemplate lines
  dsimp only
  generalize (run w p template (some lines)).2 = s at hshows
  let handled := (readLines p lines).filter (isHandled w p template)
  have hprinted : s.output = (handled.map Line.text).flatMap asLine ++ rows.flatMap asLine := by
    rw [shownOf_pipe hpipe] at hshows
    rw [State.output, hshows.printed, ← List.flatMap_append]
    exact congrArg (List.flatMap asLine) (by rw [State.start, List.append_nil, List.reverse_reverse])
  have hechoed : lines.flatMap (fun line => asLine line.stripLineEnd)
      = ((number lines).map Line.text).flatMap asLine := by
    rw [texts_of_number, List.flatMap_map]
  have hsublist : handled.Sublist (number lines) :=
    List.filter_sublist.trans (readLines_sublist p lines)
  -- fewer lines print less, so if all is printed then all lines were read and handled
  refine ⟨rows, htrailing, by rw [hprinted, List.flatMap_map], ?_, ?_⟩
  · rintro ⟨hsame, _⟩
    rw [hprinted, hechoed] at hsame
    have htexts := eq_of_flatMap_asLine (hsublist.map Line.text) (List.append_cancel_right hsame)
    have hall : handled = number lines :=
      hsublist.eq_of_length (by simpa using congrArg List.length htexts)
    have hread : readLines p lines = number lines :=
      (readLines_sublist p lines).eq_of_length_le (hall ▸ List.length_filter_le ..)
    refine ⟨readLines_eq_number_iff.mp hread, reports_iff.mpr ?_⟩
    rw [← hread]
    exact List.filter_eq_self.mp (hall.trans hread.symm)
  · rintro ⟨hread, hreports⟩
    have hread : readLines p lines = number lines := readLines_eq_number_iff.mpr hread
    have hall : handled = number lines := by
      dsimp only [handled]
      rw [hread]
      exact List.filter_eq_self.mpr (reports_iff.mp hreports)
    refine ⟨by rw [hprinted, hechoed, hall], ascending_lineNumbers hflatten ?_ hshows⟩
    rw [hflatten, hread]
    exact hreports

/-- Of three lines the first is written, the second cannot be read and the third is passed over. All
    are echoed. -/
theorem echo_iff_threeLines :
    let p : Plan := { inBatchesOf (.int 2) with output := .pipe }
    let lines : List Text := ["a\r\n", "c(", "d:''\n"]
    let s := (run obliging p "{1}" (some lines)).2
    p.output = .pipe ∧ Opens obliging p ∧
    s.output = "a\nc(\nd:''\n" ∧ s.lineNumbers.Pairwise (· < ·) := by
  intro p lines s
  have hopens : Opens obliging p := ⟨rfl, rfl⟩
  have hreports : Reports obliging p "{1}" (number lines) := .of_expanded (by decide +kernel)
  obtain ⟨rows, htrailing, _, hiff⟩ := echo_iff (w := obliging) rfl hopens (List.cons_ne_nil _ _) lines
  obtain ⟨houtput, hascending⟩ := hiff.mpr ⟨.inr rfl, hreports⟩
  obtain rfl : rows = [] :=
    Classical.byContradiction fun h => Bool.false_ne_true (htrailing.wanted h).2.2
  exact ⟨rfl, hopens, houtput.trans (by decide +kernel), hascending⟩

set_option maxRecDepth 100000 in
/-- **A line that is a fault is not echoed, and its failure is not listed in its place.** The fallback
    of the template names a field by a number that is too long, and only the first line reaches it. -/
theorem faults_unechoed :
    let p : Plan := { inBatchesOf (.int 500) with output := .pipe }
    let template : Text :=
      "\x7b1?\x7b" ++ List.replicate 4301 ('1' : CodePoint) ++ ("\x7d\x7d" : Text)
    let lines : List Text := ["", "a("]
    let s := (run obliging p template (some lines)).2
    p.output = .pipe ∧ Opens obliging p ∧ ¬ShowsRows p ∧
    s.output ≠ lines.flatMap (fun line => asLine line.stripLineEnd) ∧
    ¬s.lineNumbers.Pairwise (· < ·) := by
  intro p template lines s
  have hseen : (s.output, s.lineNumbers) = (("a(\n" : Text), [2, 1]) := by decide +kernel
  obtain ⟨houtput, hnumbers⟩ := Prod.mk.inj hseen
  refine ⟨rfl, ⟨rfl, rfl⟩, fun h => Bool.false_ne_true h.2.2, ?_, ?_⟩
  · rw [houtput]
    decide
  · rw [hnumbers]
    decide

end GraphFeed.Run
