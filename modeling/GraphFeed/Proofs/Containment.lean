import GraphFeed.Proofs.Conclusion
import GraphFeed.Proofs.Refusals

/-!
# Failures that are contained

Once a run is connected, what it sends between beginning a transaction and closing the connection is
work, and whatever the database refuses of it comes to a failure that is reported.

* `Contained`: a part of a run of which this holds. Parts that follow each other are contained if each
  of them is (`Contained.andThen`);
* `handle_contained`, `handleAll_contained`, `workOff_contained`, `workOffAll_contained`,
  `feed_contained`: **feeding is contained**, one part from the other, if the lines can be fed
  (`canFeed`). Otherwise it is a fault that sends nothing: `feed_faulty`;
* `settle_contained`: so is what follows, which is `finish_contained` or `abort_works`, unless it comes
  to a query at the end that it cannot log: `finish_unlogged`;
* `recover_contained`: a contained part is recovered from. `recover_fed` puts these together.
-/

namespace GraphFeed.Run

open GraphFeed.Graph

variable {w : Surroundings} {p : Plan} {own : Handle} {s s' s'' : State} {template : Text}

/-! ## 1. Parts of a run -/

/-- The states agree in the connection, apart from its log, and in the failures that are listed. -/
structure Quiet (s s' : State) : Prop where
  driver : s'.connection.driver = s.connection.driver
  link : s'.link = s.link
  failures : s'.failures = s.failures

namespace Quiet

theorem of_alike (h : Alike s s') : Quiet s s' := by
  obtain ⟨log, commands, rfl⟩ := h
  exact ⟨rfl, rfl, rfl⟩

theorem trans (h : Quiet s s') (h' : Quiet s' s'') : Quiet s s'' :=
  ⟨h'.driver.trans h.driver, h'.link.trans h.link, h'.failures.trans h.failures⟩

theorem noteIf (s : State) (condition : Bool) (level : Level) (message : Text) :
    Quiet s (s.noteIf condition level message) :=
  of_alike (.noted s condition level message)

theorem shown (s : State) (p : Plan) (x : Expanded) : Quiet s (s.shown p x) := by
  have hline : Quiet s (s.showLine p x.line) := by
    cases x.line with
    | none => exact ⟨rfl, rfl, rfl⟩
    | some line =>
      unfold State.showLine
      dsimp only
      split
      · have hprinted : Quiet s (s.print line.text) := ⟨rfl, rfl, rfl⟩
        exact hprinted.trans (noteIf (s.print line.text) _ _ _)
      · exact noteIf s _ _ _
  unfold State.shown
  split
  · exact hline
  · split
    · exact hline.trans ⟨rfl, rfl, rfl⟩
    · exact hline

theorem answer (s : State) (p : Plan) (rows : List Row) : Quiet s (s.answer p rows) := by
  unfold State.answer
  repeat' split
  all_goals exact ⟨rfl, rfl, rfl⟩

/-- What is done behind a commit before the query at the end. -/
theorem summarized (s : State) : Quiet s (printPending (summarize w p s)) := by
  have hsummed : Quiet s (summarize w p s) :=
    (noteIf s true .info _).trans (noteIf (s.noteIf true .info _) _ _ _)
  rw [printPending_eq]
  exact hsummed.trans ⟨rfl, rfl, rfl⟩

theorem works (h : Quiet s s') : Works own s.connection s'.connection := .of_eq h.driver h.link

theorem held (h : Quiet s s') (hheld : Held own s.connection) : Held own s'.connection :=
  have hworks : Works own s.connection s'.connection := h.works
  hworks.held hheld

end Quiet

/-- **A part of a run that is contained**: what it sends is work, and if it ends by a failure, that is
    one that is reported. It ends well without a failure listed only if none of its calls was
    refused. -/
structure Contained (w : Surroundings) (own : Handle) (s : State) (r : Ending) : Prop where
  works : Works own s.connection r.2.connection
  reported : ∀ e, r.1 = .error e → e.isReported = true
  told : r.1 = .ok () → r.2.failures = [] →
    refusals w.server r.2.connection.calls = refusals w.server s.connection.calls
  kept : r.2.failures = [] → s.failures = []

namespace Contained

variable {r : Ending}

/-- What sends nothing and lists nothing. -/
theorem of_quiet (h : Quiet s s') : Contained w own s (.well s') where
  works := h.works
  reported := nofun
  told _ _ := congrArg (fun k => refusals w.server k.calls) h.link
  kept hnone := h.failures.symm.trans hnone

/-- What lists a failure. -/
theorem of_listed (h : Works own s.connection s'.connection) (hlisted : s'.failures ≠ []) :
    Contained w own s (.well s') :=
  ⟨h, nofun, fun _ hnone => absurd hnone hlisted, fun hnone => absurd hnone hlisted⟩

/-- What goes on quietly before. -/
theorem behind (h : Quiet s s') (hr : Contained w own s' r) : Contained w own s r where
  works := h.works.trans hr.works
  reported := hr.reported
  told hok hnone := (hr.told hok hnone).trans (congrArg (fun k => refusals w.server k.calls) h.link)
  kept hnone := h.failures.symm.trans (hr.kept hnone)

/-- **What goes on after a contained part is contained.** -/
theorem andThen (h : Contained w own s r) (hheld : Held own s.connection) {next : State → Ending}
    (hnext : Held own r.2.connection → Contained w own r.2 (next r.2)) :
    Contained w own s (r.andThen next) := by
  cases hend : r.1 with
  | error e =>
    rw [Ending.andThen_of_error hend]
    exact h
  | ok _ =>
    have hrest := hnext (h.works.held hheld)
    rw [Ending.andThen_of_ok hend]
    refine ⟨h.works.trans hrest.works, hrest.reported, fun hok hnone => ?_, fun hnone => ?_⟩
    · exact (hrest.told hok hnone).trans (h.told hend (hrest.kept hnone))
    · exact h.kept (hrest.kept hnone)

/-- Listing a reported failure keeps a part contained, and it ends well. -/
theorem listing (h : Contained w own s r) (line : Option Line) :
    (r.listing line).1 = .ok () ∧ Contained w own s (r.listing line) := by
  cases hend : r.1 with
  | ok _ =>
    rw [listing_of_ok hend]
    exact ⟨hend, h⟩
  | error e =>
    rw [listing_of_reported hend (h.reported e hend)]
    exact ⟨rfl, .of_listed (h.works.trans (.of_eq rfl rfl)) (failures_fail _ line e)⟩

end Contained

/-- Listing failures sends nothing. -/
theorem failAll_contained (errors : List (Line × Error)) (s : State) :
    Contained w own s (.well (s.failAll errors)) := by
  have hworks : ∀ s : State, Works own s.connection (s.failAll errors).connection := by
    induction errors with
    | nil => exact fun s => .refl _
    | cons d errors ih =>
      intro s
      have hone : Works own s.connection (s.fail (some d.1) d.2).connection := .of_eq rfl rfl
      exact hone.trans (ih _)
  cases errors with
  | nil => exact .of_quiet ⟨rfl, rfl, rfl⟩
  | cons d errors =>
    refine .of_listed (hworks s) ?_
    rw [failures_failAll]
    exact List.append_ne_nil_of_right_ne_nil _ (List.cons_ne_nil _ _)

/-- A contained operation on the connection. -/
theorem onConnection_contained {operation : Connection → Except Error Unit × Connection}
    (h : Contains w.server own s.connection (operation s.connection)) :
    Contained w own s (s.onConnection operation) :=
  ⟨h.works, h.reported, fun hok _ => h.told () hok, id⟩

/-- So is one that answers with rows, where what is done with them is quiet. -/
theorem answered_contained {r : Except Error (List Row) × Connection}
    {next : List Row → State → State} (h : Contains w.server own s.connection r)
    (hheld : Held own s.connection)
    (hnext : ∀ rows s, Quiet s (next rows s)) :
    Contained w own s (match r.1 with
      | .error e => (.error e, { s with connection := r.2 })
      | .ok rows => .well (next rows { s with connection := r.2 })) := by
  obtain ⟨e | rows, c⟩ := r
  · exact ⟨h.works, fun e he => h.reported e (by cases he; rfl), nofun, id⟩
  · let sent : State := { s with connection := c }
    have hsent : Contained w own s (.well sent) :=
      ⟨h.works, nofun, fun _ _ => h.told rows rfl, id⟩
    change Contained w own s ((Ending.well sent).andThen fun s => .well (next rows s))
    exact hsent.andThen hheld fun _ => .of_quiet (hnext rows sent)

/-! ## 2. Feeding -/

/-- The lines can be fed: there are batches to put them in, or none are needed. -/
def canFeed (p : Plan) (template : Text) : Option (List Text) → Bool
  | none => true
  | some lines => template.isEmpty || match p.lineLimit with
    | .ok limit => (cut limit (number lines)).isEmpty || makesBatches p
    | .error _ => false

section Feeding

variable (hsimulated : p.simulated = false)

include hsimulated

theorem send_contained (hheld : Held own s.connection) (st : Statement) :
    Contained w own s (send w p st s) := by
  have hnoted := Quiet.noteIf s (p.isAbove 1) .debug (statementNotice st)
  rw [send_eq hsimulated]
  dsimp only
  split
  · exact .of_quiet hnoted
  · refine .behind hnoted ?_
    generalize s.noteIf (p.isAbove 1) .debug (statementNotice st) = s' at hnoted
    exact answered_contained (run_contains (hnoted.held hheld) st.query st.parameters)
      (hnoted.held hheld) fun rows s => .answer s p rows

/-- Handling an expansion is contained, and it ends well. -/
theorem handle_contained (hheld : Held own s.connection) (x : Expanded) :
    (handle w p x s).1 = .ok () ∧ Contained w own s (handle w p x s) := by
  have hshown := Quiet.shown s p x
  cases hx : x.instruction.bind (compile w p) with
  | error e =>
    rw [handle_of_error hx]
    have hlisted : Works own (s.shown p x).connection ((s.shown p x).fail x.line e).connection :=
      .of_eq rfl rfl
    exact ⟨rfl, .of_listed (hshown.works.trans hlisted) (failures_fail _ x.line e)⟩
  | ok statement? =>
    cases statement? with
    | none =>
      obtain ⟨notice, hhandle⟩ := handle_of_none (w := w) hx s
      rw [hhandle]
      exact ⟨rfl, .of_quiet (hshown.trans ⟨rfl, rfl, rfl⟩)⟩
    | some st =>
      rw [handle_of_some hx]
      have hsent := send_contained (w := w) hsimulated (hshown.held hheld) st
      exact ((hsent.behind hshown).listing x.line)

/-- So is handling expansions in order. -/
theorem handleAll_contained (xs : List Expanded) : ∀ {s : State}, Held own s.connection →
    (handleAll w p xs s).1 = .ok () ∧ Contained w own s (handleAll w p xs s) := by
  induction xs with
  | nil => exact fun _ => ⟨rfl, .of_quiet ⟨rfl, rfl, rfl⟩⟩
  | cons x xs ih =>
    intro s hheld
    obtain ⟨hok, hone⟩ := handle_contained (w := w) hsimulated hheld x
    have hrest := ih (hone.works.held hheld)
    refine ⟨?_, hone.andThen hheld fun _ => hrest.2⟩
    rw [handleAll, Ending.andThen_of_ok hok]
    exact hrest.1

/-- **A batch that is worked off is contained**, and it ends well. -/
theorem workOff_contained {n : Int} (hn : p.batches.size.index = .ok n) (hpos : 0 < n)
    (hworkers : p.batches.hasWorkers = true) (template : Text) (number : Nat) (batch : List Line)
    (hheld : Held own s.connection) :
    (workOff w p template number batch s).1 = .ok () ∧
      Contained w own s (workOff w p template number batch s) := by
  obtain ⟨report, hreport⟩ := Batch.process_of_hasWorkers (expandOne w p template) hn hpos
    hworkers (fun _ => w.orders number) batch
  unfold workOff
  simp only [hreport]
  generalize hs' : ({ s.recordAll _ with commands := _ } : State) = s'
  have hquiet : Quiet s s' := by
    rw [← hs']
    exact (Quiet.of_alike (.recordAll ..)).trans ⟨rfl, rfl, rfl⟩
  obtain ⟨hok, hall⟩ := handleAll_contained (w := w) hsimulated report.results (hquiet.held hheld)
  refine ⟨by rw [Ending.andThen_of_ok hok]; rfl, .behind hquiet ?_⟩
  exact hall.andThen (hquiet.held hheld) fun _ => failAll_contained ..

/-- **So are batches, one after the other.** -/
theorem workOffAll_contained {n : Int} (hn : p.batches.size.index = .ok n) (hpos : 0 < n)
    (hworkers : p.batches.hasWorkers = true) (template : Text) (parts : List (List Line)) :
    ∀ (number : Nat) {s : State}, Held own s.connection →
      (workOffAll w p template number parts s).1 = .ok () ∧
        Contained w own s (workOffAll w p template number parts s) := by
  induction parts with
  | nil => exact fun _ _ _ => ⟨rfl, .of_quiet ⟨rfl, rfl, rfl⟩⟩
  | cons batch parts ih =>
    intro number s hheld
    obtain ⟨hok, hone⟩ :=
      workOff_contained (w := w) hsimulated hn hpos hworkers template number batch hheld
    have hrest := ih (number + 1) (hone.works.held hheld)
    refine ⟨?_, hone.andThen hheld fun _ => hrest.2⟩
    rw [workOffAll, Ending.andThen_of_ok hok]
    exact hrest.1

/-- **Lines that can be fed are fed**: that is contained, and it ends well. -/
theorem feed_contained {lines : Option (List Text)} (hcan : canFeed p template lines = true)
    (hheld : Held own s.connection) : (feed w p template lines s).1 = .ok () ∧
      Contained w own s (feed w p template lines s) := by
  unfold feed
  cases lines with
  | none =>
    dsimp only
    split
    · exact ⟨rfl, .of_quiet ⟨rfl, rfl, rfl⟩⟩
    · exact handle_contained hsimulated hheld ⟨none, .ok template⟩
  | some lines =>
    unfold canFeed at hcan
    dsimp only at hcan ⊢
    split
    · exact ⟨rfl, .of_quiet (.noteIf s true .warning _)⟩
    · rename_i hempty
      rw [Bool.eq_false_iff.mpr hempty, Bool.false_or] at hcan
      generalize hs' : s.noteIf (p.isAbove 0) .debug _ = s'
      have hquiet : Quiet s s' := hs' ▸ .noteIf ..
      cases hbatches : makesBatches p with
      | true =>
        obtain ⟨n, parts, hn, hpos, hworkers, _, hwork⟩ :=
          processLines_of_makesBatches hbatches w template lines s'
        obtain ⟨hok, hall⟩ := workOffAll_contained (w := w) hsimulated hn hpos hworkers template
          parts 0 (hquiet.held hheld)
        rw [hwork]
        exact ⟨hok, hall.behind hquiet⟩
      | false =>
        -- without batches the lines can be fed only if there are none
        rw [hbatches] at hcan
        unfold processLines
        cases hlimit : p.lineLimit with
        | error e => rw [hlimit] at hcan; cases hcan
        | ok limit =>
          rw [hlimit] at hcan
          dsimp only at hcan ⊢
          rw [Bool.or_false, List.isEmpty_iff] at hcan
          rw [hcan]
          exact ⟨rfl, .of_quiet hquiet⟩

end Feeding

/-- **Lines that cannot be fed are a fault**, and nothing is sent. -/
theorem feed_faulty {lines : Option (List Text)} (hcan : canFeed p template lines = false)
    (s : State) : ∃ e, e.isReported = false ∧ (feed w p template lines s).1 = .error e ∧
      Quiet s (feed w p template lines s).2 := by
  cases lines with
  | none => cases hcan
  | some lines =>
    unfold canFeed at hcan
    obtain ⟨hempty, hcan⟩ := Bool.or_eq_false_iff.mp hcan
    unfold feed
    simp only [hempty, Bool.false_eq_true, if_false]
    generalize hs' : s.noteIf (p.isAbove 0) .debug _ = s'
    have hquiet : Quiet s s' := hs' ▸ .noteIf ..
    unfold processLines
    cases hlimit : p.lineLimit with
    | error e => exact ⟨e, isReported_lineLimit hlimit, rfl, hquiet⟩
    | ok limit =>
      rw [hlimit] at hcan
      obtain ⟨hcut, hbatches⟩ := Bool.or_eq_false_iff.mp hcan
      dsimp only
      cases hparts : cut limit (number lines) with
      | nil => rw [hparts] at hcut; cases hcut
      | cons batch parts =>
        obtain ⟨e, hfault, he⟩ :=
          process_of_noBatches hbatches hlimit hparts w template fun _ => w.orders 0
        -- the first batch is never taken to, so the others are not either
        have hone : (workOff w p template 0 batch s').1 = .error e ∧
            Quiet s' (workOff w p template 0 batch s').2 := by
          unfold workOff
          simp only [he]
          exact ⟨trivial, (Quiet.of_alike (.recordAll ..)).trans ⟨rfl, rfl, rfl⟩⟩
        rw [workOffAll, Ending.andThen_of_error hone.1]
        exact ⟨e, hfault, hone.1, hquiet.trans hone.2⟩

/-! ## 3. Behind the lines -/

/-- Taking the transaction back is work, and lists nothing. -/
theorem abort_works (own : Handle) (s : State) :
    Works own s.connection (abort w p s).connection ∧ (abort w p s).failures = s.failures := by
  unfold abort
  split
  · let noted := s.note .error "Rolling back: no changes were committed"
    have hnoted : Works own s.connection noted.connection := .of_eq rfl rfl
    exact ⟨hnoted.trans rollback_works, rfl⟩
  · exact ⟨.refl _, rfl⟩

theorem Quiet.logEndQuery (p : Plan) (query : Value) (s : State) :
    Quiet s (logEndQuery p query s).2 := by
  rcases logEndQuery_snd p query s with h | ⟨message, h⟩
  · rw [h]
    exact ⟨rfl, rfl, rfl⟩
  · rw [h]
    exact .noteIf s true .debug message

/-- A query at the end that cannot be logged is a fault, and is not sent. -/
theorem runEndQuery_unlogged (hlog : canLogEndQuery p = false) (w : Surroundings) :
    ∃ query, p.endQuery = some query ∧ ∀ s, ∃ s', Quiet s s' ∧
      runEndQuery w p query s = (.error (.noOperation query.kind "strip"), s') := by
  obtain ⟨query, hquery, hfault⟩ := logEndQuery_of_cannot hlog
  refine ⟨query, hquery, fun s =>
    ⟨s.noteIf (p.isAbove 0) .debug "Executing end query.", .noteIf .., ?_⟩⟩
  unfold runEndQuery
  dsimp only
  rw [hfault]
  rfl

/-- The query at the end is contained if it can be logged. -/
theorem runEndQuery_contained (hsimulated : p.simulated = false) (hlog : canLogEndQuery p = true)
    (hheld : Held own s.connection) {last : Value} (hquery : p.endQuery = some last) :
    Contained w own s (runEndQuery w p last s) := by
  unfold runEndQuery
  simp only [hsimulated, Bool.false_eq_true, if_false]
  generalize hs' : s.noteIf (p.isAbove 0) .debug _ = s'
  have hnoted : Quiet s s' := hs' ▸ .noteIf ..
  have hquiet : Quiet s (logEndQuery p last s').2 := hnoted.trans (.logEndQuery p last s')
  rw [Ending.andThen_of_ok (logEndQuery_of_can hlog hquery s')]
  refine .behind hquiet ?_
  let next (rows : List Row) (s : State) : State :=
    if p.showResults || p.output = .json then s.printRows rows else s
  have hprinted : ∀ rows s, Quiet s (next rows s) := by
    intro rows s
    dsimp only [next]
    split <;> exact ⟨rfl, rfl, rfl⟩
  have hexecuted : Contains w.server own (logEndQuery p last s').2.connection _ :=
    execute_contains (hquiet.held hheld) last []
  have hanswered := answered_contained hexecuted (hquiet.held hheld) hprinted
  exact hanswered

/-- Committing, if there is a transaction. -/
def committing (w : Surroundings) (p : Plan) (s : State) : Ending :=
  if usesTransaction p then s.onConnection fun c => c.commit w.server else .well s

theorem committing_contained (own : Handle) (s : State) :
    Contained w own s (committing w p s) ∧ (committing w p s).2.failures = s.failures := by
  unfold committing
  split
  · exact ⟨onConnection_contained commit_contains, rfl⟩
  · exact ⟨.of_quiet ⟨rfl, rfl, rfl⟩, rfl⟩

/-- **Committing, and the query behind it, are contained**, if the query can be logged. -/
theorem finish_contained (hsimulated : p.simulated = false) (hlog : canLogEndQuery p = true)
    (hheld : Held own s.connection) : Contained w own s (finish w p s) := by
  change Contained w own s ((committing w p s).andThen _)
  refine (committing_contained own s).1.andThen hheld fun hheld' => ?_
  have hsummed := Quiet.summarized (w := w) (p := p) (committing w p s).2
  dsimp only
  cases hquery : p.endQuery with
  | some query =>
    exact (runEndQuery_contained hsimulated hlog (hsummed.held hheld') hquery).behind hsummed
  | none => exact .of_quiet hsummed

/-- If it cannot, they end in a failure all the same, and list none. -/
theorem finish_unlogged (hlog : canLogEndQuery p = false) (own : Handle) (s : State) :
    (∃ e, (finish w p s).1 = .error e) ∧ (finish w p s).2.failures = s.failures ∧
      Works own s.connection (finish w p s).2.connection := by
  obtain ⟨hcontained, hsame⟩ := committing_contained (w := w) (p := p) own s
  obtain ⟨query, hquery, hfault⟩ := runEndQuery_unlogged hlog w
  change (∃ e, ((committing w p s).andThen _).1 = .error e) ∧
    ((committing w p s).andThen _).2.failures = s.failures ∧
    Works own s.connection ((committing w p s).andThen _).2.connection
  cases hend : (committing w p s).1 with
  | error e =>
    rw [Ending.andThen_of_error hend]
    exact ⟨⟨e, hend⟩, hsame, hcontained.works⟩
  | ok _ =>
    have hsummed := Quiet.summarized (w := w) (p := p) (committing w p s).2
    rw [Ending.andThen_of_ok hend]
    dsimp only
    rw [hquery]
    dsimp only
    obtain ⟨s', hnoted, hend⟩ := hfault (printPending (summarize w p (committing w p s).2))
    have hquiet : Quiet (committing w p s).2 s' := hsummed.trans hnoted
    rw [hend]
    exact ⟨⟨_, rfl⟩, hquiet.failures.trans hsame, hcontained.works.trans hquiet.works⟩

/-- What a run does when its lines are fed: it finishes, or takes the transaction back. -/
def settle (w : Surroundings) (p : Plan) (s : State) : Ending :=
  if s.failures.isEmpty then finish w p s else .well (abort w p s)

/-- It is contained if the query at the end can be logged, or is not come to. -/
theorem settle_contained (hsimulated : p.simulated = false)
    (hlog : canLogEndQuery p = true ∨ s.failures ≠ []) (hheld : Held own s.connection) :
    Contained w own s (settle w p s) := by
  unfold settle
  split
  · rename_i hempty
    have hnone : ¬ s.failures ≠ [] := fun hlisted => hlisted (List.isEmpty_iff.mp hempty)
    exact finish_contained hsimulated (hlog.resolve_right hnone) hheld
  · rename_i hlisted
    obtain ⟨hworks, hsame⟩ := abort_works (w := w) (p := p) own s
    exact .of_listed hworks (by rwa [hsame, ne_eq, ← List.isEmpty_iff])

/-- A failure that is reported is listed, and the transaction is taken back. -/
theorem recover_of_reported {e : Error} (he : e.isReported = true) (s : State) :
    ∃ listed : State, listed.connection.driver = s.connection.driver ∧ listed.link = s.link ∧
      listed.failures ≠ [] ∧ recover w p (.error e, s) = .well (abort w p listed) := by
  unfold recover
  dsimp only
  rw [if_pos he]
  refine ⟨_, ?_, ?_, ?_, rfl⟩
  · rfl
  · rfl
  · exact List.append_ne_nil_of_right_ne_nil _ (List.cons_ne_nil _ _)

/-- **A contained part is recovered from**: the run goes on well. -/
theorem recover_contained {r : Ending} (h : Contained w own s r) :
    (recover w p r).1 = .ok () ∧ Contained w own s (recover w p r) := by
  obtain ⟨e | _, s'⟩ := r
  · obtain ⟨listed, hdriver, hlink, hlisted, hrecover⟩ :=
      recover_of_reported (w := w) (p := p) (h.reported e rfl) s'
    have hworks : Works own s'.connection listed.connection := .of_eq hdriver hlink
    obtain ⟨haborted, hsame⟩ := abort_works (w := w) (p := p) own listed
    rw [hrecover]
    exact ⟨rfl, .of_listed (h.works.trans (hworks.trans haborted)) (by rwa [hsame])⟩
  · exact ⟨rfl, h⟩

/-- If the query at the end cannot be logged and no line has failed, a run goes on well just if a
    failure is listed. -/
theorem recover_unlogged (hlog : canLogEndQuery p = false) (hnone : s.failures = [])
    (own : Handle) : let r := recover w p (settle w p s)
    Works own s.connection r.2.connection ∧ (r.1 = .ok () ↔ r.2.failures ≠ []) := by
  have hsettle : settle w p s = finish w p s := if_pos (List.isEmpty_iff.mpr hnone)
  obtain ⟨⟨e, he⟩, hsame, hworks⟩ := finish_unlogged (w := w) hlog own s
  dsimp only
  rw [hsettle]
  cases hreported : e.isReported with
  | true =>
    obtain ⟨listed, hdriver, hlink, hlisted, hrecover⟩ :=
      recover_of_reported (w := w) (p := p) hreported (finish w p s).2
    have hlisting : Works own (finish w p s).2.connection listed.connection := .of_eq hdriver hlink
    obtain ⟨haborted, hkept⟩ := abort_works (w := w) (p := p) own listed
    rw [show finish w p s = (.error e, (finish w p s).2) from Prod.ext he rfl, hrecover]
    exact ⟨hworks.trans (hlisting.trans haborted),
      iff_of_true rfl (by rw [Ending.well, hkept]; exact hlisted)⟩
  | false =>
    rw [recover_of_fault he hreported, he, hsame, hnone]
    have hfault : ¬(Except.error e = .ok ()) := by
      intro h
      cases h
    exact ⟨hworks, iff_of_false hfault (absurd rfl)⟩

/-- A run whose transaction was begun works, and ends well if its lines can be fed and the query at
    the end can be logged, if the run comes to it. -/
theorem recover_fed (hsimulated : p.simulated = false) (template : Text)
    (lines : Option (List Text)) (hheld : Held own s.connection) :
    let r := recover w p ((feed w p template lines s).andThen (settle w p))
    Works own s.connection r.2.connection ∧
      (r.1 = .ok () ↔ canFeed p template lines = true ∧
        (canLogEndQuery p = true ∨ r.2.failures ≠ [])) ∧
      (r.1 = .ok () → r.2.failures = [] →
        refusals w.server r.2.connection.calls = refusals w.server s.connection.calls) := by
  dsimp only
  cases hcan : canFeed p template lines with
  | true =>
    obtain ⟨hfedok, hfed⟩ := feed_contained (w := w) hsimulated hcan hheld
    by_cases hlog : canLogEndQuery p = true ∨ (feed w p template lines s).2.failures ≠ []
    · obtain ⟨hok, hcontained⟩ := recover_contained (w := w) (p := p)
        (hfed.andThen hheld fun hheld' => settle_contained hsimulated hlog hheld')
      refine ⟨hcontained.works, iff_of_true hok ⟨rfl, hlog.imp_right fun hlisted hnone => ?_⟩,
        hcontained.told⟩
      rw [Ending.andThen_of_ok hfedok] at hnone
      have hsettled := settle_contained (w := w) hsimulated hlog (hfed.works.held hheld)
      exact hlisted ((recover_contained (w := w) (p := p) hsettled).2.kept hnone)
    · obtain ⟨hunlogged, hnone⟩ := not_or.mp hlog
      have hunlogged := Bool.eq_false_iff.mpr hunlogged
      have hnone := Decidable.not_not.mp hnone
      rw [Ending.andThen_of_ok hfedok]
      obtain ⟨hworks, hends⟩ := recover_unlogged (w := w) hunlogged hnone own
      refine ⟨hfed.works.trans hworks, hends.trans ?_, fun hok hunlisted => absurd hunlisted (hends.mp hok)⟩
      rw [hunlogged]
      exact ⟨fun hlisted => ⟨rfl, .inr hlisted⟩, fun h => h.2.resolve_left nofun⟩
  | false =>
    obtain ⟨e, hfault, he, hquiet⟩ := feed_faulty (w := w) hcan s
    rw [Ending.andThen_of_error he, recover_of_fault he hfault, he]
    exact ⟨hquiet.works, ⟨nofun, nofun⟩, nofun⟩

end GraphFeed.Run
