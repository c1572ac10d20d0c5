import GraphFeed.Proofs.Containment

/-!
# What a run announces

A run that takes its transaction back says so in the log (`rollbackNotice`). Nothing else that is
logged reads like it, so the log tells whether that way was taken.

* `Tacit`: between two connections nothing is announced. So it is with every operation on a
  connection, which speaks for the connection only: `tacit_connect`, `tacit_begin`, `tacit_run`,
  `tacit_commit`, `tacit_execute`, `tacit_close`;
* `Mute`: a part of a run that announces nothing. Parts that follow each other are mute if each of
  them is (`Mute.andThen`);
* `handle_mute`, `workOff_mute`, `feed_mute`: **feeding is mute**, whatever lines come to and whatever
  their commands log. So are `openGraph_mute` and `finish_mute`;
* `abort_announces`: **taking the transaction back is announced.**
-/

namespace GraphFeed

/-- What a run says when it takes its transaction back. -/
def rollbackNotice : LogRecord := ⟨.error, .run, "Rolling back: no changes were committed"⟩

end GraphFeed

namespace GraphFeed.Graph

/-! ## 1. Operations on a connection -/

/-- Nothing is announced between the connections: both logs say it, or none. -/
def Tacit (c c' : Connection) : Prop := rollbackNotice ∈ c'.log ↔ rollbackNotice ∈ c.log

namespace Tacit

variable {c c' c'' : Connection}

theorem refl (c : Connection) : Tacit c c := Iff.rfl

theorem trans (h : Tacit c c') (h' : Tacit c' c'') : Tacit c c'' := Iff.trans h' h

/-- Another record is logged. -/
theorem of_record {r : LogRecord} (hr : r ≠ rollbackNotice) (h : c'.log = r :: c.log) :
    Tacit c c' := by
  rw [Tacit, h, List.mem_cons]
  exact or_iff_right fun heq => hr heq.symm

/-- A connection does not speak for the run. -/
theorem note (c : Connection) (level : Level) (message : Text) : Tacit c (c.note level message) :=
  of_record (fun h => Source.noConfusion (congrArg LogRecord.source h)) rfl

end Tacit

namespace Connection

variable (server : Server) (c : Connection)

theorem tacit_send (call : Call) : Tacit c (c.send server call).2 := .refl c

theorem tacit_closeDriver : Tacit c (c.closeDriver server).2 := by
  unfold closeDriver
  cases c.driver with
  | none => exact .refl c
  | some driver =>
    have hsent := c.tacit_send server (.closeDriver driver)
    dsimp only
    revert hsent
    rcases c.send server (.closeDriver driver) with ⟨_ | _, c'⟩ <;> exact id

theorem tacit_close : Tacit c (c.close server).2 := by
  unfold close
  cases c.session with
  | none => exact c.tacit_closeDriver server
  | some session =>
    have hsent := c.tacit_send server (.closeSession session)
    dsimp only
    revert hsent
    rcases c.send server (.closeSession session) with ⟨_ | _, c'⟩
    · exact id
    · exact fun hsent => hsent.trans (tacit_closeDriver server { c' with session := none })

theorem tacit_giveUp (message : Text) : Tacit c (c.giveUp server message).2 := by
  have hclose := c.tacit_close server
  unfold giveUp
  revert hclose
  rcases c.close server with ⟨_ | _, c'⟩ <;> exact id

theorem tacit_openSession (driver : Handle) : Tacit c (c.openSession server driver).2 := by
  have hsent := c.tacit_send server (.openSession driver c.address.database)
  unfold openSession
  revert hsent
  rcases c.send server (.openSession driver c.address.database) with ⟨message | _, c'⟩
  · exact fun hsent => hsent.trans (c'.tacit_giveUp server message)
  · exact fun hsent => hsent.trans (.note { c' with session := some c.nextHandle } _ _)

theorem tacit_checkDriver (driver : Handle) : Tacit c (c.checkDriver server driver).2 := by
  have hsent := c.tacit_send server (.verify driver)
  unfold checkDriver
  revert hsent
  rcases c.send server (.verify driver) with ⟨message | _, c'⟩
  · exact fun hsent => hsent.trans (c'.tacit_giveUp server message)
  · exact fun hsent => hsent.trans (c'.tacit_openSession server driver)

theorem tacit_connect : Tacit c (c.connect server).2 := by
  let noted := c.note .debug ("Connecting to Neo4j @ " ++ c.address.uri.shown)
  let call : Call := .openDriver c.address.uri c.address.user (credentials c.address.password)
  have hnoted : Tacit c noted := .note c _ _
  unfold connect
  cases ha : server c.calls (.openDriver c.address.uri c.address.user
      (credentials c.address.password)) with
  | error message =>
    simp only [send, note, ha]
    exact hnoted.trans (tacit_giveUp server { noted with calls := call :: c.calls } message)
  | ok _ =>
    simp only [send, note, ha]
    exact hnoted.trans (tacit_checkDriver server
      { noted with driver := some c.calls.length, calls := call :: c.calls } c.calls.length)

theorem tacit_ensureSession : Tacit c (c.ensureSession server).2 := by
  unfold ensureSession
  split
  · exact .refl c
  · exact c.tacit_connect server

theorem tacit_ensureDriver : Tacit c (c.ensureDriver server).2 := by
  unfold ensureDriver
  split
  · exact .refl c
  · exact c.tacit_connect server

theorem tacit_begin : Tacit c (c.begin server).2 := by
  have hensured := c.tacit_ensureSession server
  unfold begin
  revert hensured
  rcases c.ensureSession server with ⟨_ | _, c'⟩
  · exact id
  · intro hensured
    dsimp only
    cases c'.session with
    | none => exact hensured
    | some session =>
      have hsent := hensured.trans (c'.tacit_send server (.begin session))
      dsimp only
      revert hsent
      rcases c'.send server (.begin session) with ⟨_ | _, c''⟩ <;> exact id

theorem tacit_commit : Tacit c (c.commit server).2 := by
  unfold commit
  cases c.transaction with
  | none => exact .refl c
  | some transaction =>
    have hsent := c.tacit_send server (.commit transaction)
    dsimp only
    revert hsent
    rcases c.send server (.commit transaction) with ⟨_ | _, c'⟩ <;> exact id

theorem tacit_rollback : Tacit c (c.rollback server) := by
  unfold rollback
  cases c.transaction with
  | none => exact .refl c
  | some transaction =>
    have hsent := c.tacit_send server (.rollback transaction)
    dsimp only
    revert hsent
    rcases c.send server (.rollback transaction) with ⟨_ | _, c'⟩
    · exact fun hsent => hsent.trans (.note c' _ _)
    · exact id

theorem tacit_run (query : Value) (parameters : Parameters) :
    Tacit c (c.run server query parameters).2 := by
  have hensured := c.tacit_ensureSession server
  unfold run
  revert hensured
  rcases c.ensureSession server with ⟨_ | _, c'⟩
  · exact id
  · intro hensured
    dsimp only
    cases c'.statementCall? query parameters with
    | none => exact hensured
    | some call =>
      have hsent := hensured.trans (c'.tacit_send server call)
      dsimp only
      revert hsent
      rcases c'.send server call with ⟨_ | _, c''⟩
      · exact fun hsent => hsent.trans (.note c'' _ _)
      · exact id

theorem tacit_runAlone (driver : Handle) (query : Value) (parameters : Parameters) :
    Tacit c (c.runAlone server driver query parameters).2 := by
  let opening : Call := .openSession driver c.address.database
  let asking : Call := .runAlone c.calls.length query parameters
  unfold runAlone
  dsimp only [send, nextHandle]
  cases server c.calls (.openSession driver c.address.database) with
  | error message => exact .note _ _ _
  | ok _ =>
    dsimp only
    cases server (asking :: opening :: c.calls) (.closeSession c.calls.length) with
    | error message => exact .note _ _ _
    | ok _ =>
      cases server (opening :: c.calls) asking with
      | error message => exact .note _ _ _
      | ok rows => exact .refl c

theorem tacit_execute (query : Value) (parameters : Parameters) :
    Tacit c (c.execute server query parameters).2 := by
  have hensured := c.tacit_ensureDriver server
  unfold execute
  revert hensured
  rcases c.ensureDriver server with ⟨_ | _, c'⟩
  · exact id
  · intro hensured
    dsimp only
    cases c'.driver with
    | none => exact hensured
    | some driver => exact hensured.trans (c'.tacit_runAlone server driver query parameters)

end Connection

end GraphFeed.Graph

namespace GraphFeed.Run

open GraphFeed.Graph

variable {w : Surroundings} {p : Plan} {s : State} {template : Text}

/-! ## 2. Records of a run -/

/-- What is no error does not announce that the transaction is taken back. -/
theorem ne_rollbackNotice_of_level {r : LogRecord} (h : r.level ≠ .error) : r ≠ rollbackNotice :=
  fun heq => h (congrArg LogRecord.level heq)

theorem tacit_note (s : State) (level : Level) (message : Text) (h : level ≠ .error) :
    Tacit s.connection (s.note level message).connection :=
  .of_record (ne_rollbackNotice_of_level h) rfl

theorem tacit_noteIf (s : State) (condition : Bool) (level : Level) (message : Text)
    (h : level ≠ .error) : Tacit s.connection (s.noteIf condition level message).connection := by
  cases condition with
  | false => exact .refl _
  | true => exact tacit_note s level message h

theorem tacit_recordAll (rs : List LogRecord) (h : ∀ r ∈ rs, r.level ≠ .error) (s : State) :
    Tacit s.connection (s.recordAll rs).connection := by
  induction rs generalizing s with
  | nil => exact .refl _
  | cons r rs ih =>
    obtain ⟨hr, hrs⟩ := List.forall_mem_cons.mp h
    have hone : Tacit s.connection (s.record r).connection :=
      .of_record (ne_rollbackNotice_of_level hr) rfl
    exact hone.trans (ih hrs (s.record r))

/-- A failure that is listed is logged in other words. -/
theorem tacit_fail (s : State) (line : Option Line) (e : Error) :
    Tacit s.connection (s.fail line e).connection := by
  refine .of_record (fun h => ?_) rfl
  have hmessage := congrArg (fun r => r.message.head?) h
  revert hmessage
  exact fun h => nomatch h

/-- What is shown of a line is no error. -/
theorem tacit_showLine (s : State) (p : Plan) (line : Option Line) :
    Tacit s.connection (s.showLine p line).connection := by
  cases line with
  | none => exact .refl _
  | some line =>
    unfold State.showLine
    dsimp only
    split
    · exact tacit_noteIf (s.print line.text) _ _ _ nofun
    · exact tacit_noteIf s _ _ _ nofun

theorem tacit_answer (s : State) (p : Plan) (rows : List Row) :
    Tacit s.connection (s.answer p rows).connection := by
  unfold State.answer
  repeat' split
  all_goals exact .refl _

/-- The failures of a batch are logged in other words, too. -/
theorem tacit_failAll (errors : List (Line × Error)) (s : State) :
    Tacit s.connection (s.failAll errors).connection := by
  induction errors generalizing s with
  | nil => exact .refl _
  | cons d errors ih => exact (tacit_fail s (some d.1) d.2).trans (ih _)

theorem tacit_summarize (w : Surroundings) (p : Plan) (s : State) :
    Tacit s.connection (summarize w p s).connection :=
  (tacit_note s .info _ nofun).trans (tacit_noteIf _ _ .info _ nofun)

theorem tacit_printPending (s : State) :
    Tacit s.connection (printPending s).connection := by
  rw [printPending_eq]
  exact .refl _

/-! ## 3. Logs of expansions and batches -/

/-- What an expansion logs is meant for those who look for errors in a template. -/
theorem level_happening {detail : Detail} {h : Happening} {r : LogRecord}
    (hr : r ∈ h.log detail) : r.level = .debug := by
  have hrecord : ∀ (shown : Bool) (message : Text),
      r ∈ (if shown then [(⟨.debug, .templates, message⟩ : LogRecord)] else []) →
        r.level = .debug := by
    intro shown message hr
    split at hr
    · rw [List.mem_singleton.mp hr]
    · exact absurd hr List.not_mem_nil
  cases h with
  | met | edited => exact absurd hr List.not_mem_nil
  | answered output => exact (List.mem_append.mp hr).elim (hrecord _ _) (hrecord _ _)
  | blocked | reading | understood | running | surveyed => exact hrecord _ _ hr

theorem level_expansionLog {line : Line} {r : LogRecord}
    (hr : r ∈ expansionLog w p template line) : r.level = .debug := by
  obtain ⟨h, _, hr⟩ := List.mem_flatMap.mp hr
  exact level_happening hr

/-- So is what is logged of a batch. -/
theorem level_eventLog {source : Source} {event : Batch.Event Line Expanded Error} {r : LogRecord}
    (hr : r ∈ event.log source (expansionLog w p template) Error.message) : r.level = .debug := by
  cases event with
  | ran line => exact level_expansionLog hr
  | started | failed | completed => rw [List.mem_singleton.mp hr]

/-! ## 4. Parts of a run -/

/-- **A part of a run that announces nothing.** -/
def Mute (part : State → Ending) : Prop :=
  ∀ s, Tacit s.connection (part s).2.connection

namespace Mute

variable {part next : State → Ending}

theorem well {change : State → State} (h : ∀ s, Tacit s.connection (change s).connection) :
    Mute fun s => .well (change s) := h

/-- What was not announced before is not announced afterwards. -/
theorem silent (hpart : Mute part) (hsilent : rollbackNotice ∉ s.connection.log) :
    rollbackNotice ∉ (part s).2.connection.log :=
  fun hmem => hsilent ((hpart s).mp hmem)

theorem andThen (hpart : Mute part) (hnext : Mute next) : Mute fun s => (part s).andThen next := by
  intro s
  have hone := hpart s
  dsimp only
  revert hone
  rcases part s with ⟨_ | _, s'⟩
  · exact id
  · exact fun hone => hone.trans (hnext s')

/-- Listing a failure announces nothing. -/
theorem listing (hpart : Mute part) (line : Option Line) : Mute fun s => (part s).listing line := by
  intro s
  have hone := hpart s
  dsimp only
  revert hone
  rcases part s with ⟨e | _, s'⟩
  · intro hone
    unfold Ending.listing
    dsimp only
    split
    · exact hone.trans (tacit_fail s' line e)
    · exact hone
  · exact id

theorem onConnection {operation : Connection → Except Error Unit × Connection}
    (h : ∀ c, Tacit c (operation c).2) : Mute fun s => s.onConnection operation :=
  fun s => h s.connection

end Mute

theorem post_mute (st : Statement) : Mute (post w p st) := by
  intro s
  have hrun := s.connection.tacit_run w.server st.query st.parameters
  unfold post
  revert hrun
  rcases s.connection.run w.server st.query st.parameters with ⟨_ | rows, c⟩
  · exact id
  · exact fun hrun => hrun.trans (tacit_answer { s with connection := c } p rows)

theorem send_mute (st : Statement) : Mute (send w p st) := by
  intro s
  unfold send
  split
  · exact tacit_note s _ _ nofun
  · have hnoted := tacit_noteIf s (p.isAbove 1) .debug (statementNotice st) nofun
    dsimp only
    split
    · exact hnoted
    · exact hnoted.trans (post_mute st _)

theorem write_mute (instruction : Text) : Mute (write w p instruction) := by
  intro s
  unfold write
  split
  · exact .refl _
  · rename_i i _
    split
    · have hskipped : i.skipNotice ≠ rollbackNotice :=
        ne_rollbackNotice_of_level nofun
      exact .of_record hskipped rfl
    · exact send_mute _ s

/-- **Handling an expansion announces nothing.** -/
theorem handle_mute (x : Expanded) : Mute (handle w p x) := by
  intro s
  refine (tacit_showLine s p x.line).trans ?_
  unfold handle
  dsimp only
  cases x.instruction with
  | error e => exact tacit_fail _ x.line e
  | ok instruction =>
    dsimp only
    generalize hs' : (if p.output = .interpolated then (s.showLine p x.line).print instruction
      else s.showLine p x.line) = s'
    have hprinted : Tacit (s.showLine p x.line).connection s'.connection := by
      rw [← hs']
      split <;> exact .refl _
    exact hprinted.trans ((write_mute instruction).listing x.line s')

theorem handleAll_mute (xs : List Expanded) : Mute (handleAll w p xs) := by
  induction xs with
  | nil => exact fun s => .refl s.connection
  | cons x xs ih => exact (handle_mute x).andThen ih

/-- **So does working off a batch.** -/
theorem workOff_mute (template : Text) (number : Nat) (batch : List Line) :
    Mute (workOff w p template number batch) := by
  intro s
  unfold workOff
  dsimp only
  generalize hrun : p.batches.process _ _ batch = run
  generalize hs' : s.recordAll _ = s'
  have hlogged : Tacit s.connection s'.connection := by
    rw [← hs']
    refine tacit_recordAll _ (fun r hr => ?_) s
    obtain ⟨event, _, hr⟩ := List.mem_flatMap.mp hr
    rw [level_eventLog hr]
    decide
  refine hlogged.trans ?_
  cases run.report with
  | error e => exact .refl _
  | ok report =>
    have hfailed : Mute fun s => .well (s.failAll report.errors) :=
      .well (tacit_failAll report.errors)
    exact ((handleAll_mute report.results).andThen hfailed) { s' with commands := _ }

theorem workOffAll_mute (template : Text) (parts : List (List Line)) :
    ∀ number, Mute (workOffAll w p template number parts) := by
  induction parts with
  | nil => exact fun _ s => .refl s.connection
  | cons batch parts ih =>
    exact fun number => (workOff_mute template number batch).andThen (ih (number + 1))

/-- **Feeding announces nothing**, whatever the lines come to. -/
theorem feed_mute (template : Text) (lines : Option (List Text)) :
    Mute (feed w p template lines) := by
  intro s
  unfold feed
  cases lines with
  | none =>
    dsimp only
    split
    · exact .refl _
    · exact handle_mute ⟨none, .ok template⟩ s
  | some lines =>
    dsimp only
    split
    · exact tacit_note s _ _ nofun
    · generalize hs' : s.noteIf (p.isAbove 0) .debug _ = s'
      have hnoted : Tacit s.connection s'.connection := hs' ▸ tacit_noteIf s _ _ _ nofun
      refine hnoted.trans ?_
      unfold processLines
      split
      · exact .refl _
      · exact workOffAll_mute template _ 0 _

/-- Nor does opening the connection. -/
theorem openGraph_mute : Mute (openGraph w p) := by
  intro s
  unfold openGraph
  split
  · exact .refl _
  · dsimp only
    generalize hs' : s.noteIf (p.isAbove 0) .debug _ = s'
    have hnoted : Tacit s.connection s'.connection := hs' ▸ tacit_noteIf s _ _ _ nofun
    have hconnected : Mute fun s => s.onConnection fun c => c.connect w.server :=
      .onConnection fun c => c.tacit_connect w.server
    have hbegun : Mute fun s =>
        if p.transactional then s.onConnection fun c => c.begin w.server else .well s := by
      intro s
      dsimp only
      split
      · exact s.connection.tacit_begin w.server
      · exact .refl _
    exact hnoted.trans (hconnected.andThen hbegun s')

theorem postAlone_mute (last : Value) : Mute (postAlone w p last) := by
  intro s
  have hexecuted := s.connection.tacit_execute w.server last []
  unfold postAlone
  revert hexecuted
  rcases s.connection.execute w.server last [] with ⟨_ | rows, c⟩
  · exact id
  · dsimp only [Ending.well]
    split <;> exact id

theorem logEndQuery_mute (last : Value) : Mute (logEndQuery p last) := by
  intro s
  rcases logEndQuery_snd p last s with h | ⟨message, h⟩
  · rw [h]
    exact .refl _
  · rw [h]
    exact tacit_noteIf s true .debug message nofun

theorem runEndQuery_mute (last : Value) : Mute (runEndQuery w p last) := by
  intro s
  refine (tacit_noteIf s (p.isAbove 0) .debug "Executing end query." nofun).trans ?_
  refine (logEndQuery_mute last).andThen (fun s => ?_) _
  split
  · exact .refl _
  · exact postAlone_mute last s

/-- Nor does committing, with the query behind it. -/
theorem finish_mute : Mute (finish w p) := by
  have hcommitted : Mute fun s =>
      if usesTransaction p then s.onConnection fun c => c.commit w.server else .well s := by
    intro s
    dsimp only
    split
    · exact s.connection.tacit_commit w.server
    · exact .refl _
  refine hcommitted.andThen fun s => ?_
  refine ((tacit_summarize w p s).trans (tacit_printPending _)).trans ?_
  dsimp only
  split
  · exact runEndQuery_mute _ _
  · exact .refl _

/-- **Taking the transaction back is announced**, if the run uses one. -/
theorem abort_announces (huses : usesTransaction p = true) (s : State) :
    rollbackNotice ∈ (abort w p s).connection.log := by
  unfold abort
  rw [if_pos huses]
  exact (Connection.tacit_rollback w.server _).mpr List.mem_cons_self

/-- Closing announces nothing. -/
theorem closing_tacit (r : Ending) : Tacit r.2.connection (closing w p r).2.connection := by
  have hclosed := r.2.connection.tacit_close w.server
  unfold closing State.onConnection
  split
  · exact .refl _
  · revert hclosed
    dsimp only
    rcases r.2.connection.close w.server with ⟨_ | _, c⟩ <;> exact id

end GraphFeed.Run
