import GraphFeed.Proofs.Transaction

/-!
# Batches of another size

However the lines of a run are put into batches, and however many workers expand them in whatever
order, the run sends, prints and returns the same (`batches_invisible`), as long as every failure to
expand a line is one that is reported. A size of batches that is greater than what can be asked for
makes a run fail (`immense_batches_visible`).

Other batches change what is logged and which commands are remembered, and nothing looks at either.
Two states that differ in nothing else are `Alike`, and so they stay:

* `LogBlind`: an operation on the connection does not look at the log. That is so for `close`,
  `connect`, `begin`, `run`, `commit`, `rollback` and `execute`;
* `Alike.handleAll`: expansions that are handled in alike states;
* `processLines_alike`: **batches of lines come to their expansions**, handled one after the other;
* `Alike.openGraph`: what comes before them;
* `Alike.finish`, `Alike.abort`, `Alike.recover`, `Alike.closing`: what comes after them.
-/

namespace GraphFeed.Graph.Connection

/-! ## 1. Operations and the log -/

/-- The connection with another log. -/
def logged (c : Connection) (log : List LogRecord) : Connection := { c with log }

/-- What an operation answers and does is the same with any log. -/
def LogBlind {α : Type} (operation : Connection → α × Connection) : Prop :=
  ∀ c log, ∃ log', operation (c.logged log) = ((operation c).1, (operation c).2.logged log')

@[simp] theorem driver_logged (c : Connection) (log : List LogRecord) :
    (c.logged log).driver = c.driver := rfl

@[simp] theorem session_logged (c : Connection) (log : List LogRecord) :
    (c.logged log).session = c.session := rfl

@[simp] theorem transaction_logged (c : Connection) (log : List LogRecord) :
    (c.logged log).transaction = c.transaction := rfl

@[simp] theorem address_logged (c : Connection) (log : List LogRecord) :
    (c.logged log).address = c.address := rfl

@[simp] theorem nextHandle_logged (c : Connection) (log : List LogRecord) :
    (c.logged log).nextHandle = c.nextHandle := rfl

@[simp] theorem send_logged (server : Server) (call : Call) (c : Connection)
    (log : List LogRecord) : (c.logged log).send server call
      = ((c.send server call).1, (c.send server call).2.logged log) := rfl

variable (server : Server)

theorem logBlind_closeDriver : LogBlind (closeDriver server) := by
  intro c log
  unfold closeDriver
  simp only [driver_logged, send_logged]
  cases c.driver with
  | none => exact ⟨log, rfl⟩
  | some driver =>
    dsimp only
    rcases c.send server (.closeDriver driver) with ⟨_ | _, c'⟩
    · exact ⟨log, rfl⟩
    · exact ⟨log, rfl⟩

theorem logBlind_close : LogBlind (close server) := by
  intro c log
  unfold close
  simp only [session_logged, send_logged]
  cases c.session with
  | none => exact logBlind_closeDriver server c log
  | some session =>
    dsimp only
    rcases c.send server (.closeSession session) with ⟨_ | _, c'⟩
    · exact ⟨log, rfl⟩
    · exact logBlind_closeDriver server { c' with session := none } log

theorem logBlind_giveUp (message : Text) : LogBlind (giveUp server message) := by
  intro c log
  obtain ⟨log', hclose⟩ := logBlind_close server c log
  unfold giveUp
  rw [hclose]
  rcases c.close server with ⟨_ | _, c'⟩
  · exact ⟨log', rfl⟩
  · exact ⟨log', rfl⟩

theorem logBlind_openSession (driver : Handle) : LogBlind (openSession server driver) := by
  intro c log
  unfold openSession
  simp only [address_logged, nextHandle_logged, send_logged]
  rcases c.send server (.openSession driver c.address.database) with ⟨message | _, c'⟩
  · exact logBlind_giveUp server message c' log
  · exact ⟨_, rfl⟩

theorem logBlind_checkDriver (driver : Handle) : LogBlind (checkDriver server driver) := by
  intro c log
  unfold checkDriver
  simp only [send_logged]
  rcases c.send server (.verify driver) with ⟨message | _, c'⟩
  · exact logBlind_giveUp server message c' log
  · exact logBlind_openSession server driver c' log

theorem logBlind_connect : LogBlind (connect server) := by
  intro c log
  let noted := c.note .debug ("Connecting to Neo4j @ " ++ c.address.uri.shown)
  let noted' := (c.logged log).note .debug ("Connecting to Neo4j @ " ++ c.address.uri.shown)
  have hnoted : noted' = noted.logged noted'.log := rfl
  unfold connect
  rw [address_logged, show (c.logged log).note .debug _ = noted.logged noted'.log from hnoted]
  simp only [address_logged, nextHandle_logged, send_logged]
  rcases noted.send server (.openDriver noted.address.uri noted.address.user
    (credentials noted.address.password)) with ⟨message | _, c'⟩
  · exact logBlind_giveUp server message c' _
  · exact logBlind_checkDriver server _ { c' with driver := some noted.nextHandle } _

theorem logBlind_ensureSession : LogBlind (ensureSession server) := by
  intro c log
  unfold ensureSession
  rw [session_logged]
  split
  · exact ⟨log, rfl⟩
  · exact logBlind_connect server c log

theorem logBlind_ensureDriver : LogBlind (ensureDriver server) := by
  intro c log
  unfold ensureDriver
  rw [driver_logged]
  split
  · exact ⟨log, rfl⟩
  · exact logBlind_connect server c log

theorem logBlind_begin : LogBlind (begin server) := by
  intro c log
  obtain ⟨log', hensure⟩ := logBlind_ensureSession server c log
  unfold begin
  rw [hensure]
  rcases c.ensureSession server with ⟨_ | _, c'⟩
  · exact ⟨log', rfl⟩
  · simp only [session_logged, nextHandle_logged, send_logged]
    cases c'.session with
    | none => exact ⟨log', rfl⟩
    | some session =>
      dsimp only
      rcases c'.send server (.begin session) with ⟨_ | _, c''⟩
      · exact ⟨log', rfl⟩
      · exact ⟨log', rfl⟩

theorem logBlind_commit : LogBlind (commit server) := by
  intro c log
  unfold commit
  simp only [transaction_logged, send_logged]
  cases c.transaction with
  | none => exact ⟨log, rfl⟩
  | some transaction =>
    dsimp only
    rcases c.send server (.commit transaction) with ⟨_ | _, c'⟩
    · exact ⟨log, rfl⟩
    · exact ⟨log, rfl⟩

theorem rollback_logged (c : Connection) (log : List LogRecord) :
    ∃ log', (c.logged log).rollback server = (c.rollback server).logged log' := by
  unfold rollback
  simp only [transaction_logged, send_logged]
  cases c.transaction with
  | none => exact ⟨log, rfl⟩
  | some transaction =>
    dsimp only
    rcases c.send server (.rollback transaction) with ⟨_ | _, c'⟩
    · exact ⟨_, rfl⟩
    · exact ⟨log, rfl⟩

theorem logBlind_run (query : Value) (parameters : Parameters) :
    LogBlind (run server query parameters) := by
  intro c log
  obtain ⟨log', hensure⟩ := logBlind_ensureSession server c log
  unfold run
  rw [hensure]
  rcases c.ensureSession server with ⟨_ | _, c'⟩
  · exact ⟨log', rfl⟩
  · simp only [statementCall?, transaction_logged, session_logged, send_logged]
    split
    · exact ⟨log', rfl⟩
    · rename_i call _
      rcases c'.send server call with ⟨message | rows, c''⟩
      · exact ⟨_, rfl⟩
      · exact ⟨log', rfl⟩

theorem logBlind_runAlone (driver : Handle) (query : Value) (parameters : Parameters) :
    LogBlind (runAlone server driver query parameters) := by
  intro c log
  unfold runAlone
  simp only [address_logged, nextHandle_logged, send_logged]
  rcases c.send server (.openSession driver c.address.database) with ⟨message | _, c₁⟩
  · exact ⟨_, rfl⟩
  · simp only [send_logged]
    rcases c₁.send server (.runAlone c.nextHandle query parameters) with ⟨answer, c₂⟩
    dsimp only
    rcases c₂.send server (.closeSession c.nextHandle) with ⟨message | _, c₃⟩
    · exact ⟨_, rfl⟩
    · cases answer with
      | error message => exact ⟨_, rfl⟩
      | ok rows => exact ⟨log, rfl⟩

theorem logBlind_execute (query : Value) (parameters : Parameters) :
    LogBlind (execute server query parameters) := by
  intro c log
  obtain ⟨log', hensure⟩ := logBlind_ensureDriver server c log
  unfold execute
  rw [hensure]
  rcases c.ensureDriver server with ⟨_ | _, c'⟩
  · exact ⟨log', rfl⟩
  · simp only [driver_logged]
    cases c'.driver with
    | none => exact ⟨log', rfl⟩
    | some driver => exact logBlind_runAlone server driver query parameters c' log'

end GraphFeed.Graph.Connection

namespace GraphFeed.Run

open GraphFeed.Graph

/-! ## 2. Alike states -/

/-- The state with another log and other commands. -/
def State.retold (s : State) (log : List LogRecord) (commands : List Text) : State :=
  { s with connection := s.connection.logged log, commands }

/-- States that differ at most in the log and in the commands that are remembered. -/
def Alike (s s' : State) : Prop := ∃ log commands, s' = s.retold log commands

/-- Parts of a run that end in the same way, and in alike states. -/
def Ending.Alike (r r' : Ending) : Prop := r'.1 = r.1 ∧ Run.Alike r.2 r'.2

variable {w : Surroundings} {p : Plan} {s s' s'' : State} {r r' : Ending}

namespace Alike

theorem refl (s : State) : Alike s s := ⟨s.connection.log, s.commands, rfl⟩

theorem symm (h : Alike s s') : Alike s' s := by
  obtain ⟨log, commands, rfl⟩ := h
  exact ⟨s.connection.log, s.commands, rfl⟩

theorem trans (h : Alike s s') (h' : Alike s' s'') : Alike s s'' := by
  obtain ⟨log, commands, rfl⟩ := h
  obtain ⟨log', commands', rfl⟩ := h'
  exact ⟨log', commands', rfl⟩

theorem failures (h : Alike s s') : s'.failures = s.failures := by
  obtain ⟨log, commands, rfl⟩ := h
  rfl

theorem note (h : Alike s s') (level : Level) (message : Text) :
    Alike (s.note level message) (s'.note level message) := by
  obtain ⟨log, commands, rfl⟩ := h
  exact ⟨_, _, rfl⟩

theorem noteIf (h : Alike s s') (condition : Bool) (level : Level) (message : Text) :
    Alike (s.noteIf condition level message) (s'.noteIf condition level message) := by
  cases condition with
  | false => exact h
  | true => exact h.note level message

theorem print (h : Alike s s') (line : Text) : Alike (s.print line) (s'.print line) := by
  obtain ⟨log, commands, rfl⟩ := h
  exact ⟨_, _, rfl⟩

theorem fail (h : Alike s s') (line : Option Line) (e : Error) :
    Alike (s.fail line e) (s'.fail line e) := by
  obtain ⟨log, commands, rfl⟩ := h
  exact ⟨_, _, rfl⟩

theorem recordAll (s : State) (rs : List LogRecord) : Alike s (s.recordAll rs) := by
  induction rs generalizing s with
  | nil => exact refl s
  | cons r rs ih =>
    have hone : Alike s (s.record r) := ⟨r :: s.connection.log, s.commands, rfl⟩
    exact hone.trans (ih (s.record r))

/-- What is noted makes no difference. -/
theorem noted (s : State) (condition : Bool) (level : Level) (message : Text) :
    Alike s (s.noteIf condition level message) := by
  cases condition with
  | false => exact refl s
  | true => exact recordAll s [⟨level, .run, message⟩]

theorem answer (h : Alike s s') (p : Plan) (rows : List Row) :
    Alike (s.answer p rows) (s'.answer p rows) := by
  obtain ⟨log, commands, rfl⟩ := h
  unfold State.answer
  split
  · split
    · exact ⟨_, _, rfl⟩
    · exact ⟨_, _, rfl⟩
  · exact ⟨_, _, rfl⟩

theorem showLine (h : Alike s s') (p : Plan) (line : Option Line) :
    Alike (s.showLine p line) (s'.showLine p line) := by
  cases line with
  | none => exact h
  | some line =>
    unfold State.showLine
    dsimp only
    split
    · exact (h.print _).noteIf _ _ _
    · exact h.noteIf _ _ _

theorem printPending (h : Alike s s') : Alike (printPending s) (printPending s') := by
  obtain ⟨log, commands, rfl⟩ := h
  rw [printPending_eq, printPending_eq]
  exact ⟨log, commands, rfl⟩

theorem summarize (h : Alike s s') (w : Surroundings) (p : Plan) :
    Alike (summarize w p s) (summarize w p s') := by
  obtain ⟨log, commands, rfl⟩ := h
  exact ((Alike.note ⟨log, commands, rfl⟩ _ _)).noteIf _ _ _

/-- An operation that does not look at the log. -/
theorem onConnection {operation : Connection → Except Error Unit × Connection}
    (h : Alike s s') (hblind : Connection.LogBlind operation) :
    (s.onConnection operation).Alike (s'.onConnection operation) := by
  obtain ⟨log, commands, rfl⟩ := h
  obtain ⟨log', hoperation⟩ := hblind s.connection log
  unfold State.onConnection
  rw [show (s.retold log commands).connection = s.connection.logged log from rfl, hoperation]
  exact ⟨rfl, log', commands, rfl⟩

end Alike

namespace Ending.Alike

theorem well (h : Run.Alike s s') : (Ending.well s).Alike (Ending.well s') := ⟨rfl, h⟩

theorem symm (h : r.Alike r') : r'.Alike r := ⟨h.1.symm, h.2.symm⟩

theorem trans {r'' : Ending} (h : r.Alike r') (h' : r'.Alike r'') : r.Alike r'' :=
  ⟨h'.1.trans h.1, h.2.trans h'.2⟩

/-- What goes on in alike ways from alike states ends alike. -/
theorem andThen {next next' : State → Ending} (h : r.Alike r')
    (hnext : ∀ {s s'}, Run.Alike s s' → (next s).Alike (next' s')) :
    (r.andThen next).Alike (r'.andThen next') := by
  obtain ⟨e | _, s⟩ := r
  · obtain ⟨_, s'⟩ := r'
    obtain ⟨rfl, hs⟩ := h
    exact ⟨rfl, hs⟩
  · obtain ⟨_, s'⟩ := r'
    obtain ⟨rfl, hs⟩ := h
    exact hnext hs

end Ending.Alike

/-! ## 3. One instruction -/

namespace Alike

theorem post (h : Alike s s') (st : Statement) : (post w p st s).Alike (post w p st s') := by
  obtain ⟨log, commands, rfl⟩ := h
  obtain ⟨log', hrun⟩ :=
    Connection.logBlind_run w.server st.query st.parameters s.connection log
  unfold Run.post
  rw [show (s.retold log commands).connection = s.connection.logged log from rfl, hrun]
  rcases s.connection.run w.server st.query st.parameters with ⟨e | rows, c⟩
  · exact ⟨rfl, log', commands, rfl⟩
  · exact ⟨rfl, Alike.answer ⟨log', commands, rfl⟩ p rows⟩

theorem send (h : Alike s s') (st : Statement) : (send w p st s).Alike (send w p st s') := by
  unfold Run.send
  split
  · obtain ⟨log, commands, rfl⟩ := h
    exact ⟨rfl, _, _, rfl⟩
  · have hnoted := h.noteIf (p.isAbove 1) .debug (statementNotice st)
    dsimp only
    rw [hnoted.failures]
    split
    · exact .well hnoted
    · exact hnoted.post st

theorem write (h : Alike s s') (instruction : Text) :
    (write w p instruction s).Alike (write w p instruction s') := by
  unfold Run.write
  cases Instruction.read w.parser instruction with
  | error e => exact ⟨rfl, h⟩
  | ok i =>
    dsimp only
    cases Statement.ofInstruction p.keepBlank i with
    | none =>
      obtain ⟨log, commands, rfl⟩ := h
      exact ⟨rfl, _, _, rfl⟩
    | some st => exact h.send st

end Alike

theorem Ending.Alike.listing (h : r.Alike r') (line : Option Line) :
    (r.listing line).Alike (r'.listing line) := by
  obtain ⟨e | _, s⟩ := r
  · obtain ⟨_, s'⟩ := r'
    obtain ⟨rfl, hs⟩ := h
    unfold Ending.listing
    dsimp only
    split
    · exact .well (hs.fail line e)
    · exact ⟨rfl, hs⟩
  · obtain ⟨_, s'⟩ := r'
    obtain ⟨rfl, hs⟩ := h
    exact ⟨rfl, hs⟩

theorem Alike.handle (h : Alike s s') (x : Expanded) : (handle w p x s).Alike (handle w p x s') := by
  have hshown := h.showLine p x.line
  unfold Run.handle
  cases x.instruction with
  | error e => exact .well (hshown.fail x.line e)
  | ok instruction =>
    dsimp only
    split
    · exact ((hshown.print instruction).write instruction).listing x.line
    · exact (hshown.write instruction).listing x.line

/-- **Expansions that are handled in alike states end alike.** -/
theorem Alike.handleAll (xs : List Expanded) :
    ∀ {s s' : State}, Alike s s' → (handleAll w p xs s).Alike (handleAll w p xs s') := by
  induction xs with
  | nil => exact fun h => .well h
  | cons x xs ih => exact fun h => (h.handle x).andThen ih

/-! ## 4. All lines -/

theorem handleAll_append (xs ys : List Expanded) (s : State) :
    handleAll w p (xs ++ ys) s = (handleAll w p xs s).andThen (handleAll w p ys) := by
  induction xs generalizing s with
  | nil => rfl
  | cons x xs ih =>
    rw [List.cons_append, handleAll, handleAll, Ending.andThen_assoc]
    exact congrArg (handle w p x s).andThen (funext ih)

/-- What lines expand to. -/
def expansions (w : Surroundings) (p : Plan) (template : Text) (lines : List Line) :
    List Expanded :=
  lines.filterMap fun line => (expandOne w p template line).toOption

/-- Every failure to expand one of the lines is reported. -/
def Reports (w : Surroundings) (p : Plan) (template : Text) (lines : List Line) : Prop :=
  ∀ line ∈ lines, ∀ e, (expansion w p template line).result = .error e → e.isReported = true

variable {template : Text} {lines : List Line}

/-- Where every failure is reported, the work on lines lists no failure of its own. -/
theorem Reports.noFaults (h : Reports w p template lines) :
    lines.filterMap (Batch.failure? (expandOne w p template)) = [] := by
  refine List.filterMap_eq_nil_iff.mpr fun line hline => ?_
  rw [Batch.failure?, expandOne]
  cases hx : (expansion w p template line).result with
  | ok instruction => rfl
  | error e =>
    dsimp only
    rw [if_pos (h line hline e hx)]

/-- Lines that can all be expanded have no failure to report. -/
theorem Reports.of_expanded
    (h : ∀ line ∈ lines, (expansion w p template line).result.toBool = true) :
    Reports w p template lines := by
  intro line hline e hfails
  have hwell := h line hline
  rw [hfails] at hwell
  cases hwell

/-- **A batch of lines comes to its expansions.** -/
theorem workOff_alike {n : Int} (hn : p.batches.size.index = .ok n) (hpos : 0 < n)
    (hworkers : p.batches.hasWorkers = true) (hreports : Reports w p template lines) (number : Nat)
    (s : State) :
    (workOff w p template number lines s).Alike
      (handleAll w p (expansions w p template lines) s) := by
  obtain ⟨report, hreport⟩ := Batch.process_of_hasWorkers (expandOne w p template) hn hpos
    hworkers (fun _ => w.orders number) lines
  obtain ⟨hresults, herrors⟩ := Batch.report_process hn (Int.le_of_lt hpos) hreport
  rw [hreports.noFaults] at herrors
  unfold workOff
  simp only [hreport, herrors, hresults]
  generalize hs' : ({ s.recordAll _ with commands := _ } : State) = s'
  have halike : Alike s s' := by
    obtain ⟨log, commands, heq⟩ := Alike.recordAll s _
    rw [← hs', heq]
    exact ⟨log, _, rfl⟩
  have hhandled := halike.symm.handleAll (w := w) (p := p) (expansions w p template lines)
  refine Ending.Alike.trans ?_ hhandled
  change (Ending.andThen (handleAll w p (expansions w p template lines) s') fun s =>
    .well (s.failAll [])).Alike (handleAll w p (expansions w p template lines) s')
  rcases handleAll w p (expansions w p template lines) s' with ⟨e | _, s⟩
  · exact ⟨rfl, .refl s⟩
  · exact ⟨rfl, .refl s⟩

/-- **So do batches of lines, one after the other.** -/
theorem workOffAll_alike (w : Surroundings) (template : Text) {n : Int} (hn : p.batches.size.index = .ok n) (hpos : 0 < n)
    (hworkers : p.batches.hasWorkers = true) (parts : List (List Line)) :
    ∀ (number : Nat) (s : State), Reports w p template parts.flatten →
      (workOffAll w p template number parts s).Alike
        (handleAll w p (expansions w p template parts.flatten) s) := by
  induction parts with
  | nil => exact fun _ s _ => .well (.refl s)
  | cons batch parts ih =>
    intro number s hreports
    have hbatch : Reports w p template batch := fun line hline =>
      hreports line (List.mem_append_left _ hline)
    have hparts : Reports w p template parts.flatten := fun line hline =>
      hreports line (List.mem_append_right _ hline)
    rw [List.flatten_cons, expansions, List.filterMap_append, handleAll_append]
    refine (workOff_alike hn hpos hworkers hbatch number s).andThen fun {s s'} hs => ?_
    exact (ih (number + 1) s hparts).trans (hs.handleAll _)

/-- **Lines for which batches are made come to their expansions**, whatever the batches are. -/
theorem processLines_alike (hbatches : makesBatches p = true) {lines : List Text}
    (hreports : Reports w p template (number lines)) (s : State) :
    (processLines w p template lines s).Alike
      (handleAll w p (expansions w p template (number lines)) s) := by
  obtain ⟨n, parts, hn, hpos, hworkers, hflatten, hwork⟩ :=
    processLines_of_makesBatches hbatches w template lines s
  rw [hwork]
  rw [← hflatten] at hreports ⊢
  exact workOffAll_alike w template hn hpos hworkers parts 0 s hreports

/-! ## 5. What comes before and after the lines -/

namespace Alike

theorem openGraph (h : Alike s s') : (openGraph w p s).Alike (openGraph w p s') := by
  have haddress : s'.connection.address = s.connection.address := by
    obtain ⟨log, commands, rfl⟩ := h
    rfl
  unfold Run.openGraph
  split
  · exact .well h
  · rw [haddress]
    have hnoted := h.noteIf (p.isAbove 0) .debug
      ("Connecting to Neo4j @ " ++ s.connection.address.uri.shown)
    refine (hnoted.onConnection (Connection.logBlind_connect w.server)).andThen fun hs => ?_
    split
    · exact hs.onConnection (Connection.logBlind_begin w.server)
    · exact .well hs

theorem abort (h : Alike s s') : Alike (abort w p s) (abort w p s') := by
  unfold Run.abort
  split
  · obtain ⟨log, commands, hnoted⟩ := h.note .error "Rolling back: no changes were committed"
    obtain ⟨log', hrollback⟩ := Connection.rollback_logged w.server
      (s.note .error "Rolling back: no changes were committed").connection log
    dsimp only
    rw [hnoted]
    exact ⟨log', commands, congrArg (fun c => ({ (s.note .error
      "Rolling back: no changes were committed") with connection := c, commands } : State)) hrollback⟩
  · exact h

theorem postAlone (h : Alike s s') (query : Value) :
    (postAlone w p query s).Alike (postAlone w p query s') := by
  obtain ⟨log, commands, rfl⟩ := h
  obtain ⟨log', hexecute⟩ := Connection.logBlind_execute w.server query [] s.connection log
  unfold Run.postAlone
  rw [show (s.retold log commands).connection = s.connection.logged log from rfl, hexecute]
  rcases s.connection.execute w.server query [] with ⟨e | rows, c⟩
  · exact ⟨rfl, log', commands, rfl⟩
  · dsimp only
    split
    · exact ⟨rfl, log', commands, rfl⟩
    · exact ⟨rfl, log', commands, rfl⟩

theorem logEndQuery (h : Alike s s') (query : Value) :
    (logEndQuery p query s).Alike (logEndQuery p query s') := by
  unfold Run.logEndQuery
  split
  · split
    · exact .well (h.note _ _)
    · exact ⟨rfl, h⟩
  · exact .well h

theorem runEndQuery (h : Alike s s') (query : Value) :
    (runEndQuery w p query s).Alike (runEndQuery w p query s') := by
  have hnoted := h.noteIf (p.isAbove 0) .debug "Executing end query."
  unfold Run.runEndQuery
  refine (hnoted.logEndQuery query).andThen fun hlogged => ?_
  split
  · exact .well hlogged
  · exact hlogged.postAlone query

/-- **Committing and what follows it end alike.** -/
theorem finish (h : Alike s s') : (finish w p s).Alike (finish w p s') := by
  unfold Run.finish
  refine Ending.Alike.andThen ?_ fun hs => ?_
  · split
    · exact h.onConnection (Connection.logBlind_commit w.server)
    · exact .well h
  · have hsummed := (hs.summarize w p).printPending
    dsimp only
    split
    · exact hsummed.runEndQuery _
    · exact .well hsummed

end Alike

namespace Ending.Alike

theorem recover (h : r.Alike r') : (recover w p r).Alike (recover w p r') := by
  obtain ⟨e | _, s⟩ := r
  · obtain ⟨_, s'⟩ := r'
    obtain ⟨rfl, hs⟩ := h
    unfold Run.recover
    dsimp only
    split
    · refine .well (Run.Alike.abort ?_)
      obtain ⟨log, commands, rfl⟩ := hs
      exact ⟨_, _, rfl⟩
    · exact ⟨rfl, hs⟩
  · obtain ⟨_, s'⟩ := r'
    obtain ⟨rfl, hs⟩ := h
    exact ⟨rfl, hs⟩

theorem closing (h : r.Alike r') : (closing w p r).Alike (closing w p r') := by
  unfold Run.closing
  split
  · exact h
  · obtain ⟨hend, hclose⟩ := h.2.onConnection (Connection.logBlind_close w.server)
    revert hend hclose
    rcases r.2.onConnection fun c => c.close w.server with ⟨e | _, s⟩
    · rcases r'.2.onConnection fun c => c.close w.server with ⟨_, s'⟩
      rintro rfl hclose
      exact ⟨rfl, hclose⟩
    · rcases r'.2.onConnection fun c => c.close w.server with ⟨_, s'⟩
      rintro rfl hclose
      exact ⟨h.1, hclose⟩

end Ending.Alike

/-! ## 6. The whole run -/

variable {batches : Batch.Plan} {orders : Nat → List Nat} {lines : Option (List Text)}

/-- Handling looks neither at the batches nor at the order in which workers finish. -/
theorem handleAll_rebatched (batches : Batch.Plan) (orders : Nat → List Nat) (xs : List Expanded)
    (s : State) :
    handleAll { w with orders } { p with batches } xs s = handleAll w p xs s := by
  induction xs generalizing s with
  | nil => rfl
  | cons x xs ih => exact congrArg (handle w p x s).andThen (funext ih)

/-- Feeding does not depend on the batches. -/
theorem feed_alike (hbatches : makesBatches p = true)
    (hbatches' : makesBatches { p with batches } = true)
    (hreports : ∀ given ∈ lines, Reports w p template (number given)) (s : State) :
    (feed w p template lines s).Alike
      (feed { w with orders } { p with batches } template lines s) := by
  cases lines with
  | none => exact ⟨rfl, .refl _⟩
  | some given =>
    unfold feed
    dsimp only
    split
    · exact ⟨rfl, .refl _⟩
    · have hgiven := hreports given rfl
      refine (processLines_alike hbatches hgiven _).trans (Ending.Alike.symm ?_)
      rw [← handleAll_rebatched batches orders]
      exact processLines_alike (w := { w with orders }) hbatches' hgiven _

theorem body_alike (hbatches : makesBatches p = true)
    (hbatches' : makesBatches { p with batches } = true)
    (hreports : ∀ given ∈ lines, Reports w p template (number given)) (s : State) :
    (body w p template lines s).Alike
      (body { w with orders } { p with batches } template lines s) := by
  unfold body
  rw [show openGraph { w with orders } { p with batches } s = openGraph w p s from rfl]
  rcases openGraph w p s with ⟨e | _, s⟩
  · exact ⟨rfl, .refl s⟩
  · refine (feed_alike hbatches hbatches' hreports s).andThen fun {s s'} hs => ?_
    rw [hs.failures]
    split
    · exact hs.finish
    · exact .well hs.abort

/-- **A run does not depend on the batches**, nor on the order in which workers finish. -/
theorem run_alike (orders : Nat → List Nat) (hbatches : makesBatches p = true)
    (hbatches' : makesBatches { p with batches } = true)
    (hreports : ∀ given ∈ lines, Reports w p template (number given)) :
    (run w p template lines).Alike (run { w with orders } { p with batches } template lines) := by
  unfold run
  rw [show Plan.checkVerbosity { p with batches } = p.checkVerbosity from rfl]
  cases p.checkVerbosity with
  | error e => exact ⟨rfl, .refl _⟩
  | ok _ => exact (body_alike hbatches hbatches' hreports _).recover.closing

/-! ## 7. What can be seen of a run -/

/-- What can be seen of a run: how it ends, what it has sent and printed, what it has counted, and
    the failures that it lists. -/
structure Visible where
  ending : Except Error Unit
  calls : List Call
  output : Text
  expressions : Nat
  skipped : Nat
  failures : List Failure

/-- What can be seen of a run that has ended. -/
def Ending.visible (r : Ending) : Visible where
  ending := r.1
  calls := r.2.connection.calls
  output := r.2.output
  expressions := r.2.expressions
  skipped := r.2.skipped
  failures := r.2.failures

theorem Ending.Alike.visible (h : r.Alike r') : r'.visible = r.visible := by
  obtain ⟨hend, log, commands, hstate⟩ := h
  unfold Ending.visible
  rw [hend, hstate]
  rfl

/-- What can be seen of the run that settings ask for. -/
def visibleOf (w : Surroundings) (settings : Settings) (host : Host)
    (template : Text) (lines : Option (List Text)) : Except Error Visible :=
  (Plan.ofSettings settings host).map fun p => (run w p template lines).visible

end GraphFeed.Run

namespace GraphFeed

/-! ## 8. Settings -/

/-- The settings with batches of a size and a number of jobs. -/
def Settings.inBatches (settings : Settings) (size jobs : Int) : Settings
  | .batchSize => .int size
  | .jobs => .int jobs
  | setting => settings setting

/-- The strategy for a number of jobs. -/
def Batch.Strategy.ofJobs (jobs : Int) : Batch.Strategy :=
  if 1 < jobs then .parallel else .sequential

theorem Plan.readStrategy_int (jobs : Int) :
    Plan.readStrategy (.int jobs) = .ok (.ofJobs jobs) := by
  have hcompare : (Value.int jobs).compareInt 1 = .ok (some (compare jobs 1)) := rfl
  unfold Plan.readStrategy Batch.Strategy.ofJobs
  rw [hcompare]
  by_cases hjobs : 1 < jobs
  · rw [if_pos hjobs, Int.compare_eq_gt.mpr hjobs]
  · rw [if_neg hjobs]
    have hnot : compare jobs 1 ≠ .gt := fun h => hjobs (Int.compare_eq_gt.mp h)
    cases hc : compare jobs 1 with
    | gt => exact absurd hc hnot
    | lt => rfl
    | eq => rfl

/-- Other batches make a plan that differs in nothing else. -/
theorem Plan.ofSettings_inBatches (settings : Settings) (host : Host)
    (size jobs size' jobs' : Int) :
    Plan.ofSettings (settings.inBatches size' jobs') host
      = (Plan.ofSettings (settings.inBatches size jobs) host).map fun p =>
          { p with batches := .of host.processors (.ofJobs jobs') (.int size') (.int jobs') } := by
  unfold Plan.ofSettings
  simp only [Settings.inBatches, Plan.readStrategy_int]
  cases Plan.readOutput (settings .output) with
  | error e => rfl
  | ok output =>
    cases Plan.readMark .delimiter (settings .separator) with
    | error e => rfl
    | ok delimiter =>
      cases Plan.readMark .quote (settings .quote) with
      | error e => rfl
      | ok quote => rfl

namespace Run

open GraphFeed.Graph

/-- A plan made of settings makes batches, if they are of a size that can be asked for. -/
theorem makesBatches_of_settings {settings : Settings} {host : Host} {p : Plan}
    {size jobs : Int} (hp : Plan.ofSettings (settings.inBatches size jobs) host = .ok p)
    (hpos : 1 ≤ size) (hmax : size ≤ Plan.maxLines) : makesBatches p = true :=
  makesBatches_of_index hp rfl hpos hmax

/-- **Batch size and parallelism are invisible.** Runs of the same settings in batches of other sizes,
    with other numbers of jobs and workers that finish in another order, send the same calls, print
    the same, count the same and list the same failures, if every failure to expand a line is one
    that is reported, and the sizes can be asked for. -/
theorem batches_invisible (w : Surroundings) (orders : Nat → List Nat) (settings : Settings)
    (host : Host) (template : Text) (lines : Option (List Text))
    (size jobs size' jobs' : Int) (hpos : 1 ≤ size) (hmax : size ≤ Plan.maxLines)
    (hpos' : 1 ≤ size') (hmax' : size' ≤ Plan.maxLines)
    (hreports : ∀ p, Plan.ofSettings (settings.inBatches size jobs) host = .ok p →
      ∀ given ∈ lines, Reports w p template (number given)) :
    visibleOf { w with orders } (settings.inBatches size' jobs') host template lines
      = visibleOf w (settings.inBatches size jobs) host template lines := by
  have hother := Plan.ofSettings_inBatches settings host size jobs size' jobs'
  unfold visibleOf
  cases hp : Plan.ofSettings (settings.inBatches size jobs) host with
  | error e =>
    rw [hp, Except.map] at hother
    rw [hother, Except.map, Except.map]
  | ok p =>
    rw [hp, Except.map] at hother
    have hbatches := makesBatches_of_settings hp hpos hmax
    have hbatches' := makesBatches_of_settings hother hpos' hmax'
    have halike := run_alike orders hbatches hbatches' (hreports p hp)
    rw [hother, Except.map, Except.map, halike.visible]

/-- A machine with four processors and an empty environment. -/
def bareHost : Host := ⟨some 4, fun _ => none⟩

/-- The settings where nothing is given, in batches of a size and for a number of jobs. -/
def standardInBatches (size jobs : Int) : Settings :=
  (Settings.standard bareHost.processors).inBatches size jobs

/-- Lines that can all be expanded have no failure to report under the standard settings. -/
theorem reports_standard {template : Text} {given : List Text}
    (h : ∀ line ∈ number given, (expandLine .standard (obliging.runner line.number) template
      line.text).result.toBool = true) {p : Plan}
    (hp : Plan.ofSettings (standardInBatches 1 1) bareHost = .ok p) :
    Reports obliging p template (number given) := by
  have hsplitter : ((Plan.ofSettings (standardInBatches 1 1) bareHost).toOption.bind
      fun p => p.splitter.toOption) = some .standard := by decide +kernel
  rw [hp] at hsplitter
  have hsplitter : p.splitter = .ok .standard := by
    cases hs : p.splitter with
    | error odd => rw [Except.toOption, Option.bind_some, hs] at hsplitter; cases hsplitter
    | ok s => rw [Except.toOption, Option.bind_some, hs] at hsplitter; cases hsplitter; rfl
  refine .of_expanded fun line hline => ?_
  rw [expansion_of_ok hsplitter]
  exact h line hline

/-- Two lines, one of which has no second field: one by one, or at once by three workers, the last
    of which finishes first. -/
theorem batches_invisible_twoLines :
    visibleOf { obliging with orders := fun _ => [1, 0] } (standardInBatches 2 3) bareHost "{2}"
        (some ["a b", "c"])
      = visibleOf obliging (standardInBatches 1 1) bareHost "{2}" (some ["a b", "c"]) := by
  refine batches_invisible obliging (fun _ => [1, 0]) (.standard bareHost.processors) bareHost "{2}"
    (some ["a b", "c"]) 1 1 2 3 (by decide) (by decide) (by decide) (by decide) ?_
  rintro p hp given ⟨⟩
  exact reports_standard (by decide +kernel) hp

/-- **Batches that are too great to be asked for can be seen.** The line is written if it is the
    only one of its batch, and it is not if the batch were to hold 2⁶³ lines. -/
theorem immense_batches_visible :
    (∀ p, Plan.ofSettings (standardInBatches 1 1) bareHost = .ok p →
      Reports obliging p "a" (number ["b"])) ∧
    visibleOf obliging (standardInBatches 9223372036854775808 1) bareHost "a" (some ["b"])
      ≠ visibleOf obliging (standardInBatches 1 1) bareHost "a" (some ["b"]) := by
  refine ⟨fun p hp => reports_standard (by decide +kernel) hp, fun hsame => ?_⟩
  have hwritten := congrArg (fun seen => seen.toOption.map Visible.expressions) hsame
  revert hwritten
  decide +kernel

end Run

end GraphFeed
