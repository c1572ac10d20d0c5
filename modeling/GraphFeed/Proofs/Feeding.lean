import GraphFeed.Proofs.Batches
import GraphFeed.Proofs.Connections
import GraphFeed.Run.Basic

/-!
# Feeding a transaction

What a line of input comes to (`lineResult`): a failure, or the statement it stands for, or none if
it is passed over. While lines are handled in an open transaction, the run keeps `Feeding`: the
transaction is still open, and if no failure has been listed yet, the history of calls is `Clean`,
that is, no line has failed and the statements sent are those of the lines so far.

* `handle_feeding`: one expansion keeps it, whether it fails or not;
* `handleAll_feeding`: so does a list of expansions;
* `workOff_feeding`, `workOffAll_feeding`: so do batches, whose faults are listed at their end;
* `feed_feeding`: **after a run has fed, the transaction holds what its lines come to**, or a
  failure is listed.
-/

namespace GraphFeed.Run

open GraphFeed.Graph

/-! ## 1. What lines come to -/

/-- Where the marks are texts, a line is split at them. -/
theorem expansion_of_ok {p : Plan} {s : Splitter} (h : p.splitter = .ok s) (w : Surroundings)
    (template : Text) (line : Line) : expansion w p template line
      = expandLine s (w.runner line.number) template line.text := by
  rw [expansion, h]

/-- The statement of an instruction that is written down, or none if it is passed over. -/
def compile (w : Surroundings) (p : Plan) (instruction : Text) : Except Error (Option Statement) :=
  (Instruction.read w.parser instruction).map (Statement.ofInstruction p.keepBlank)

/-- What a line of input comes to: the statement that the template makes of it, or none if it is
    passed over. -/
def lineResult (w : Surroundings) (p : Plan) (template : Text) (line : Line) :
    Except Error (Option Statement) :=
  (expansion w p template line).result.bind (compile w p)

/-- Batches hold at least one line, and there are workers for them. -/
def makesBatches (p : Plan) : Bool :=
  match p.lineLimit with
  | .ok (some limit) => decide (0 < limit) && p.batches.hasWorkers
  | _ => false

/-- The lines that a run reads: all of them, if there are batches to put them in. -/
def readLines (p : Plan) (lines : List Text) : List Line :=
  if makesBatches p then number lines else []

/-- The lines that are to be written: all of them, unless batches are to hold no line. -/
def dueLines (p : Plan) (lines : List Text) : List Line :=
  match p.lineLimit with
  | .ok (some 0) => []
  | _ => number lines

/-- The strategy that a number of jobs asks for finds its workers. -/
theorem hasWorkers_of_readStrategy {strategy : Batch.Strategy} {jobs : Value}
    (h : Plan.readStrategy jobs = .ok strategy) (processors : Option Nat) (size : Value) :
    (Batch.Plan.of processors strategy size jobs).hasWorkers = true := by
  cases strategy with
  | sequential => rfl
  | parallel =>
    have hjobs : jobs.compareInt 1 = .ok (some .gt) := by
      unfold Plan.readStrategy at h
      split at h
      · assumption
      all_goals cases h
    unfold Batch.Plan.of Batch.Plan.hasWorkers
    dsimp only
    split
    · rw [Batch.checkWorkers, Value.compareInt_zero_of_one hjobs]
      rfl
    · have hworkers : compare (workersFor processors : Int) 0 = .gt :=
        Int.compare_eq_gt.mpr (Int.natCast_pos.mpr (workersFor_pos processors))
      rw [Batch.checkWorkers, Value.compareInt, hworkers]
      rfl

/-- **What a plan made of settings is made of**: the output mode and the marks that they name, the
    strategy for their jobs, and the other settings as they are. -/
theorem ofSettings_eq_ok {settings : Settings} {host : Host} {p : Plan}
    (hp : Plan.ofSettings settings host = .ok p) : ∃ output delimiter quote strategy,
      Plan.readOutput (settings .output) = .ok output ∧
      Plan.readMark .delimiter (settings .separator) = .ok delimiter ∧
      Plan.readMark .quote (settings .quote) = .ok quote ∧
      Plan.readStrategy (settings .jobs) = .ok strategy ∧
      p = {
        output
        transactional := !(settings .stream).isTrue
        simulated := (settings .testOnly).isTrue
        keepBlank := (settings .keepBlank).isTrue
        splitter := Plan.splitterOf delimiter quote
        batches := .of host.processors strategy (settings .batchSize) (settings .jobs)
        verbosity := settings .verbosity
        endQuery := if (settings .endQuery).isTrue then some (settings .endQuery) else none
        showResults := (settings .showResults).isTrue
        address := .of (settings .uri) (settings .user) (settings .password) (settings .database)
          host.lookup } := by
  unfold Plan.ofSettings at hp
  cases houtput : Plan.readOutput (settings .output) with
  | error e => rw [houtput] at hp; cases hp
  | ok output =>
    cases hdelimiter : Plan.readMark .delimiter (settings .separator) with
    | error e => rw [houtput, hdelimiter] at hp; cases hp
    | ok delimiter =>
      cases hquote : Plan.readMark .quote (settings .quote) with
      | error e => rw [houtput, hdelimiter, hquote] at hp; cases hp
      | ok quote =>
        rw [houtput, hdelimiter, hquote] at hp
        cases hstrategy : Plan.readStrategy (settings .jobs) with
        | error e => rw [hstrategy] at hp; cases hp
        | ok strategy =>
          rw [hstrategy] at hp
          cases hp
          exact ⟨output, delimiter, quote, strategy, rfl, rfl, rfl, rfl, rfl⟩

/-- A size that can be asked for is the number of lines in a batch. -/
theorem lineLimit_of_index {p : Plan} {n : Int} (hn : p.batches.size.index = .ok n) (hpos : 0 ≤ n)
    (hmax : n ≤ Plan.maxLines) : p.lineLimit = .ok (some n.toNat) := by
  unfold Plan.lineLimit
  split
  · rename_i hnull
    rw [hnull] at hn
    cases hn
  · rw [hn]
    exact if_pos ⟨hpos, hmax⟩

/-- **A plan made of settings makes batches** if they are of a size from one on that can be asked for. -/
theorem makesBatches_of_index {settings : Settings} {host : Host} {p : Plan}
    (hp : Plan.ofSettings settings host = .ok p) {n : Int}
    (hn : (settings .batchSize).index = .ok n) (hpos : 1 ≤ n) (hmax : n ≤ Plan.maxLines) :
    makesBatches p = true := by
  obtain ⟨_, _, _, strategy, _, _, _, hstrategy, hplan⟩ := ofSettings_eq_ok hp
  have hbatches : p.batches = .of host.processors strategy (settings .batchSize) (settings .jobs) := by
    rw [hplan]
  have hlimit : p.lineLimit = .ok (some n.toNat) :=
    lineLimit_of_index (by rw [hbatches]; exact hn) (by omega) hmax
  unfold makesBatches
  rw [hlimit, hbatches]
  dsimp only
  rw [hasWorkers_of_readStrategy hstrategy, decide_eq_true (by omega), Bool.and_self]

/-- What a run writes: the template itself, or what its lines come to. -/
def results (w : Surroundings) (p : Plan) (template : Text) :
    Option (List Text) → List (Except Error (Option Statement))
  | none => [compile w p template]
  | some lines => (readLines p lines).map (lineResult w p template)

/-- The statements among results, as they are sent. -/
def statements (results : List (Except Error (Option Statement))) : List Request :=
  results.filterMap fun result => result.toOption.join.map fun st => ↑st

/-- No result is a failure, no statement was refused, and those of the results were sent. -/
structure Clean (server : Server) (results : List (Except Error (Option Statement)))
    (calls : List Call) : Prop where
  noFailure : ∀ result ∈ results, result.toBool = true
  noRefusal : refused server calls = false
  complete : sent calls = statements results

variable {server : Server} {done : List (Except Error (Option Statement))} {calls : List Call}

theorem Clean.nil (hcalls : sent calls = []) (hrefused : refused server calls = false) :
    Clean server [] calls :=
  ⟨fun _ h => absurd h List.not_mem_nil, hrefused, hcalls⟩

/-- A call that runs no statement changes nothing. -/
theorem Clean.cons {call : Call} (h : Clean server done calls) (hcall : call.isRun = false) :
    Clean server done (call :: calls) :=
  ⟨h.noFailure, by rw [refused_of_notRun hcall]; exact h.noRefusal,
    by rw [sent_of_notRun hcall]; exact h.complete⟩

/-- A result that is passed over sends nothing. -/
theorem Clean.skip (h : Clean server done calls) : Clean server (done ++ [.ok none]) calls := by
  refine ⟨fun result hr => ?_, h.noRefusal, ?_⟩
  · rcases List.mem_append.mp hr with hr | hr
    · exact h.noFailure result hr
    · rw [List.mem_singleton.mp hr]
      rfl
  · rw [h.complete, statements, statements, List.filterMap_append]
    exact (List.append_nil _).symm

/-- A statement that was answered is one of those sent. -/
theorem Clean.send (h : Clean server done calls) {t : Handle} {st : Statement}
    (ha : accepts server calls (.run t st.query st.parameters) = true) :
    Clean server (done ++ [.ok (some st)]) (.run t st.query st.parameters :: calls) := by
  refine ⟨fun result hr => ?_, ?_, ?_⟩
  · rcases List.mem_append.mp hr with hr | hr
    · exact h.noFailure result hr
    · rw [List.mem_singleton.mp hr]
      rfl
  · rw [refused, ha, h.noRefusal]
    rfl
  · rw [sent, h.complete, statements, statements, List.filterMap_append]
    rfl

/-! ## 2. What is kept by the parts that send nothing -/

/-- The connection of a state, apart from its log. -/
def State.link (s : State) : Link := s.connection.link

/-- What a state has counted, listed, kept and printed. -/
structure Ledger where
  expressions : Nat
  skipped : Nat
  failures : List Failure
  pending : List (List Row)
  printed : List Text

/-- What the state has counted, listed, kept and printed. -/
def State.ledger (s : State) : Ledger :=
  ⟨s.expressions, s.skipped, s.failures, s.pending, s.printed⟩

/-- What the state has counted and listed. -/
def State.tally (s : State) : Nat × Nat × List Failure := (s.expressions, s.skipped, s.failures)

theorem tally_of_ledger {s s' : State} (h : s'.ledger = s.ledger) : s'.tally = s.tally :=
  congrArg (fun l => (l.expressions, l.skipped, l.failures)) h

section Frame

variable (s : State)

@[simp] theorem ledger_note (level : Level) (message : Text) :
    (s.note level message).ledger = s.ledger := rfl

@[simp] theorem ledger_noteIf (condition : Bool) (level : Level) (message : Text) :
    (s.noteIf condition level message).ledger = s.ledger := by
  cases condition <;> rfl

@[simp] theorem ledger_recordAll (rs : List LogRecord) :
    (s.recordAll rs).ledger = s.ledger := by
  induction rs generalizing s with
  | nil => rfl
  | cons r rs ih => exact ih (s.record r)

@[simp] theorem link_note (level : Level) (message : Text) :
    (s.note level message).link = s.link := rfl

@[simp] theorem link_noteIf (condition : Bool) (level : Level) (message : Text) :
    (s.noteIf condition level message).link = s.link := by
  cases condition <;> rfl

@[simp] theorem failures_noteIf (condition : Bool) (level : Level) (message : Text) :
    (s.noteIf condition level message).failures = s.failures := by
  cases condition <;> rfl

@[simp] theorem link_recordAll (rs : List LogRecord) : (s.recordAll rs).link = s.link := by
  induction rs generalizing s with
  | nil => rfl
  | cons r rs ih => exact ih (s.record r)

@[simp] theorem failures_recordAll (rs : List LogRecord) :
    (s.recordAll rs).failures = s.failures := by
  induction rs generalizing s with
  | nil => rfl
  | cons r rs ih => exact ih (s.record r)

theorem failures_fail (line : Option Line) (e : Error) : (s.fail line e).failures ≠ [] :=
  List.append_ne_nil_of_right_ne_nil _ (List.cons_ne_nil _ _)

theorem link_failAll (errors : List (Line × Error)) : (s.failAll errors).link = s.link := by
  induction errors generalizing s with
  | nil => rfl
  | cons d errors ih => exact ih (s.fail (some d.1) d.2)

theorem failures_failAll (errors : List (Line × Error)) :
    (s.failAll errors).failures = s.failures ++ errors.map fun d => ⟨some d.1, d.2⟩ := by
  induction errors generalizing s with
  | nil => exact (List.append_nil _).symm
  | cons d errors ih =>
    rw [List.map_cons, List.append_cons]
    exact ih (s.fail (some d.1) d.2)

@[simp] theorem link_answer (p : Plan) (rows : List Row) : (s.answer p rows).link = s.link := by
  unfold State.answer
  repeat' split
  all_goals rfl

theorem tally_answer (p : Plan) (rows : List Row) :
    (s.answer p rows).tally = (s.expressions + 1, s.skipped, s.failures) := by
  unfold State.answer
  repeat' split
  all_goals rfl

/-- Rows that are neither printed nor kept are only counted. -/
theorem ledger_answer {p : Plan} (houtput : p.output ≠ .json) (rows : List Row) :
    (s.answer p rows).ledger = { s.ledger with expressions := s.expressions + 1 } := by
  unfold State.answer
  dsimp only
  rw [if_neg houtput]
  rfl

@[simp] theorem link_showLine (p : Plan) (line : Option Line) :
    (s.showLine p line).link = s.link := by
  cases line with
  | none => rfl
  | some line =>
    unfold State.showLine
    dsimp only
    rw [link_noteIf]
    split <;> rfl

@[simp] theorem failures_showLine (p : Plan) (line : Option Line) :
    (s.showLine p line).failures = s.failures := by
  cases line with
  | none => rfl
  | some line =>
    unfold State.showLine
    dsimp only
    rw [failures_noteIf]
    split <;> rfl

/-- Answers that were kept are printed, the latest last. -/
theorem printPending_eq : printPending s = { s with
    printed := (s.pending.map fun rows => (Value.list rows).json).reverse ++ s.printed
    pending := [] } := by
  have hfold : ∀ (pending : List (List Row)) (s : State), pending.foldl State.printRows s
      = { s with printed := (pending.map fun rows => (Value.list rows).json).reverse ++ s.printed } := by
    intro pending
    induction pending with
    | nil => exact fun _ => rfl
    | cons rows pending ih =>
      intro s
      rw [List.foldl_cons, ih, List.map_cons, List.reverse_cons, List.append_assoc]
      rfl
  rw [printPending, hfold]

@[simp] theorem link_printPending : (printPending s).link = s.link := by
  rw [printPending_eq]
  rfl

theorem tally_printPending : (printPending s).tally = s.tally := by
  rw [printPending_eq]
  rfl

@[simp] theorem ledger_summarize (w : Surroundings) (p : Plan) :
    (summarize w p s).ledger = s.ledger := by
  rw [summarize, ledger_noteIf, ledger_note]

@[simp] theorem link_summarize (w : Surroundings) (p : Plan) : (summarize w p s).link = s.link := by
  rw [summarize, link_noteIf, link_note]

/-- **To log the query at the end is to note something**, whether the query can be logged or not. -/
theorem logEndQuery_snd (p : Plan) (query : Value) (s : State) :
    (logEndQuery p query s).2 = s ∨ ∃ message, (logEndQuery p query s).2 = s.note .debug message := by
  unfold logEndQuery
  split
  · split
    · exact .inr ⟨_, rfl⟩
    · exact .inl rfl
  · exact .inl rfl

@[simp] theorem link_logEndQuery (p : Plan) (query : Value) :
    (logEndQuery p query s).2.link = s.link := by
  rcases logEndQuery_snd p query s with h | ⟨message, h⟩ <;> rw [h]
  exact link_note ..

@[simp] theorem ledger_logEndQuery (p : Plan) (query : Value) :
    (logEndQuery p query s).2.ledger = s.ledger := by
  rcases logEndQuery_snd p query s with h | ⟨message, h⟩ <;> rw [h]
  exact ledger_note ..

end Frame

/-- The query at the end, if there is one, can be logged where it is to be: it is a text then. -/
def canLogEndQuery (p : Plan) : Bool :=
  match p.endQuery with
  | none | some (.text _) => true
  | some _ => !(p.isAbove 1 || p.simulated)

theorem logEndQuery_of_can {p : Plan} (h : canLogEndQuery p = true) {query : Value}
    (hquery : p.endQuery = some query) (s : State) : (logEndQuery p query s).1 = .ok () := by
  unfold logEndQuery
  split
  · rename_i hlogged
    unfold canLogEndQuery at h
    rw [hquery] at h
    cases query with
    | text t => rfl
    | null | bool | int | float | list | mapping =>
      dsimp only at h
      rw [hlogged] at h
      cases h
  · rfl

/-- Otherwise there is one, and to log it is a fault. -/
theorem logEndQuery_of_cannot {p : Plan} (h : canLogEndQuery p = false) :
    ∃ query, p.endQuery = some query ∧
      ∀ s, logEndQuery p query s = (.error (.noOperation query.kind "strip"), s) := by
  unfold canLogEndQuery at h
  split at h
  · cases h
  · cases h
  · rename_i query hno hquery
    have hlogged : (p.isAbove 1 || p.simulated) = true :=
      Bool.not_inj h
    refine ⟨query, hquery, fun s => ?_⟩
    unfold logEndQuery
    rw [if_pos hlogged]
    split
    · exact (hno _ rfl).elim
    · rfl

/-! ## 3. The invariant -/

/-- There is a session, and its transaction is open. -/
structure InTransaction (w : Surroundings) (p : Plan) (t : Handle) (k : Link) : Prop where
  session : k.session.isSome = true
  transaction : k.transaction = some t
  protocol : Protocol w.server p.endQuery (.open t) k.calls

/-- **The invariant of feeding**: the transaction is open, and unless a failure is listed, it holds
    what has been done. -/
structure Feeding (w : Surroundings) (p : Plan) (t : Handle)
    (done : List (Except Error (Option Statement))) (s : State) : Prop where
  inside : InTransaction w p t s.link
  clean : s.failures = [] → Clean w.server done s.link.calls

variable {w : Surroundings} {p : Plan} {t : Handle} {s s' : State}

theorem Feeding.of_eq (h : Feeding w p t done s) (hlink : s'.link = s.link)
    (hfailures : s'.failures = s.failures) : Feeding w p t done s' :=
  ⟨hlink ▸ h.inside, fun he => hlink ▸ h.clean (hfailures ▸ he)⟩

/-- Once a failure is listed, only the transaction matters. -/
theorem InTransaction.failed (h : InTransaction w p t s.link) (hfailures : s.failures ≠ []) :
    Feeding w p t done s :=
  ⟨h, fun he => absurd he hfailures⟩

/-- Statements are run in the transaction. -/
theorem InTransaction.call {k : Link} (h : InTransaction w p t k) (r : Request) :
    k.call? r = some (.run t r.query r.parameters) := by
  rw [Link.call?, h.transaction]

/-- A run of a statement leaves the transaction open. -/
theorem InTransaction.run {k : Link} (h : InTransaction w p t k) (query : Value)
    (parameters : Parameters) :
    InTransaction w p t ⟨k.session, some t, .run t query parameters :: k.calls⟩ :=
  ⟨h.session, rfl, .call h.protocol (.run t query parameters)⟩

/-! ## 4. Lines and their batches -/

/-- What a line comes to is its expansion, handled. -/
theorem lineResult_eq (template : Text) (line : Line) :
    lineResult w p template line
      = (expandOne w p template line).bind fun x => x.instruction.bind (compile w p) := by
  unfold lineResult expandOne
  cases (expansion w p template line).result with
  | ok instruction => rfl
  | error e => dsimp only; split <;> rfl

/-- A limit is the size of the batches. -/
theorem index_of_lineLimit {limit : Nat} (h : p.lineLimit = .ok (some limit)) :
    ∃ n : Int, p.batches.size.index = .ok n ∧ 0 ≤ n ∧ n.toNat = limit := by
  unfold Plan.lineLimit at h
  split at h
  · cases h
  · split at h
    · rename_i n hn
      split at h
      · rename_i hbounds
        cases h
        exact ⟨n, hn, hbounds.1, rfl⟩
      · cases h
    · cases h

/-- Only null is no limit. -/
theorem index_of_noLimit (h : p.lineLimit = .ok none) :
    ∃ kind, p.batches.size.index = .error kind := by
  unfold Plan.lineLimit at h
  split at h
  · rename_i hsize
    exact ⟨_, by rw [hsize]; rfl⟩
  · split at h
    · split at h <;> cases h
    · cases h

/-- A size that is no limit is a fault. -/
theorem isReported_lineLimit {e : Error} (h : p.lineLimit = .error e) : e.isReported = false := by
  unfold Plan.lineLimit at h
  split at h
  · cases h
  · split at h
    · split at h
      · cases h
      · cases h
        rfl
    · cases h
      rfl

/-- Lines that are cut into no batch are none, or the limit is zero. -/
theorem eq_nil_of_cut {limit : Option Nat} {lines : List Line} (h : cut limit lines = []) :
    limit = some 0 ∨ lines = [] := by
  cases lines with
  | nil => exact .inr rfl
  | cons line lines =>
    rcases limit with _ | _ | limit
    · cases h
    · exact .inl rfl
    · have hcut : Batch.chunks (limit + 1) (line :: lines) = [] := h
      rw [Batch.chunks] at hcut
      cases hcut

/-- A batch that lines are cut into holds a line. -/
theorem nonempty_of_cut {limit : Nat} {lines batch : List Line} {parts : List (List Line)}
    (h : cut (some limit) lines = batch :: parts) : 0 < limit ∧ batch ≠ [] := by
  cases limit with
  | zero => cases h
  | succ k =>
    have hcut : Batch.chunks (k + 1) lines = batch :: parts := h
    have hmem : batch ∈ Batch.chunks (k + 1) lines := by
      rw [hcut]
      exact List.mem_cons_self ..
    exact ⟨Nat.succ_pos k, Batch.ne_nil_of_mem_chunks hmem⟩

/-- A batch that is refused ends the run, and nothing has been handled. -/
theorem workOff_of_refused {template : Text} {number : Nat} {batch : List Line} {e : Error}
    (he : (p.batches.process (expandOne w p template) (fun _ => w.orders number)
      batch).report = .error e) (s : State) (parts : List (List Line)) :
    (workOffAll w p template number (batch :: parts) s).1 = .error e ∧
      (workOffAll w p template number (batch :: parts) s).2.link = s.link ∧
      (workOffAll w p template number (batch :: parts) s).2.ledger = s.ledger := by
  have hone : (workOff w p template number batch s).1 = .error e ∧
      (workOff w p template number batch s).2.link = s.link ∧
      (workOff w p template number batch s).2.ledger = s.ledger := by
    unfold workOff
    simp only [he]
    exact ⟨trivial, link_recordAll .., ledger_recordAll ..⟩
  rw [workOffAll, Ending.andThen_of_error hone.1]
  exact hone

/-- Where batches are made, the lines are worked off in batches. -/
theorem processLines_of_makesBatches (hbatches : makesBatches p = true) (w : Surroundings)
    (template : Text) (lines : List Text) (s : State) :
    ∃ (n : Int) (parts : List (List Line)), p.batches.size.index = .ok n ∧ 0 < n ∧
      p.batches.hasWorkers = true ∧ parts.flatten = number lines ∧
      processLines w p template lines s = workOffAll w p template 0 parts s := by
  unfold makesBatches at hbatches
  split at hbatches
  · rename_i limit hlimit
    obtain ⟨hpos, hworkers⟩ := Bool.and_eq_true_iff.mp hbatches
    have hpos : 0 < limit := of_decide_eq_true hpos
    obtain ⟨n, hn, _, rfl⟩ := index_of_lineLimit hlimit
    refine ⟨n, cut (some n.toNat) (number lines), hn, by omega, hworkers, ?_, ?_⟩
    · obtain ⟨k, hk⟩ := Nat.exists_eq_succ_of_ne_zero (Nat.pos_iff_ne_zero.mp hpos)
      rw [hk]
      exact Batch.flatten_chunks _ _
    · rw [processLines, hlimit]
  · cases hbatches

/-- Where no batches are made, work on lines is a fault. -/
theorem process_of_noBatches (hbatches : makesBatches p = false) {limit : Option Nat}
    (hlimit : p.lineLimit = .ok limit) {lines batch : List Line} {parts : List (List Line)}
    (hparts : cut limit lines = batch :: parts) (w : Surroundings) (template : Text)
    (orders : Nat → List Nat) :
    ∃ e, e.isReported = false ∧
      (p.batches.process (expandOne w p template) orders batch).report = .error e := by
  cases limit with
  | none =>
    obtain ⟨kind, hkind⟩ := index_of_noLimit hlimit
    exact Batch.process_of_noIndex _ hkind _ _
  | some limit =>
    obtain ⟨n, hn, _, rfl⟩ := index_of_lineLimit hlimit
    obtain ⟨hpos, hbatch⟩ := nonempty_of_cut hparts
    have hworkers : p.batches.hasWorkers = false := by
      unfold makesBatches at hbatches
      rw [hlimit] at hbatches
      dsimp only at hbatches
      rwa [decide_eq_true hpos, Bool.true_and] at hbatches
    exact Batch.process_of_noWorkers _ hn (by omega) hworkers _ hbatch

/-- Where no batches are made, no line is handled; the run may end in a failure, but none is
    listed. If there are lines to write, it ends in a fault. -/
theorem processLines_of_noBatches (hbatches : makesBatches p = false) (template : Text)
    (lines : List Text) (s : State) :
    (processLines w p template lines s).2.link = s.link ∧
      (processLines w p template lines s).2.ledger = s.ledger ∧
      (dueLines p lines ≠ [] → ∃ e, e.isReported = false ∧
        (processLines w p template lines s).1 = .error e) := by
  unfold processLines dueLines
  cases hlimit : p.lineLimit with
  | error e => exact ⟨rfl, rfl, fun _ => ⟨e, isReported_lineLimit hlimit, rfl⟩⟩
  | ok limit =>
    dsimp only
    cases hparts : cut limit (number lines) with
    | nil =>
      refine ⟨rfl, rfl, fun hdue => absurd ?_ hdue⟩
      rcases eq_nil_of_cut hparts with rfl | hnone
      · rfl
      · split
        · rfl
        · exact hnone
    | cons batch parts =>
      obtain ⟨e, hfault, he⟩ :=
        process_of_noBatches hbatches hlimit hparts w template fun _ => w.orders 0
      obtain ⟨hend, hlink, hledger⟩ := workOff_of_refused he s parts
      exact ⟨hlink, hledger, fun _ => ⟨e, hfault, hend⟩⟩

/-! ## 5. One instruction -/

/-- The failures to read an instruction are reported. -/
theorem isReported_read {instruction : Text} {e : Error}
    {parser : Parser}
    (h : Instruction.read parser instruction = .error e) : e.isReported = true := by
  unfold Instruction.read at h
  split at h
  · cases h
    rfl
  · split at h
    · cases h
      rfl
    · rename_i tree _
      cases hbuild : tree.build with
      | error operand => rw [hbuild] at h; cases h; rfl
      | ok _ => rw [hbuild] at h; cases h

theorem listing_of_ok {line : Option Line} {r : Ending} (h : r.1 = .ok ()) :
    r.listing line = r := by
  obtain ⟨_ | _, s⟩ := r
  · cases h
  · rfl

theorem listing_of_reported {line : Option Line} {r : Ending} {e : Error} (h : r.1 = .error e)
    (hreported : e.isReported = true) : r.listing line = (.ok (), r.2.fail line e) := by
  obtain ⟨_ | _, s⟩ := r
  · cases h
    rw [Ending.listing, if_pos hreported]
    rfl
  · cases h

/-- A statement that is sent is answered and counted, or refused with a failure that is reported. -/
theorem post_cases {st : Statement} {call : Call} (hsession : s.link.session.isSome = true)
    (hcall : s.link.call? st = some call) :
    (post w p st s).2.link = ⟨s.link.session, s.link.transaction, call :: s.link.calls⟩ ∧
      ((refusal? w.server s.link.calls call = none ∧ (post w p st s).1 = .ok () ∧
          (post w p st s).2.tally = (s.expressions + 1, s.skipped, s.failures)) ∨
        ∃ message, refusal? w.server s.link.calls call = some message ∧
          (post w p st s).1 = .error (.write .statement message) ∧
          (post w p st s).2.tally = s.tally) := by
  have hrun := s.connection.run_call w.server hsession hcall
  unfold post
  revert hrun
  rcases s.connection.run w.server st.query st.parameters with ⟨e | rows, c⟩
  · rintro ⟨hlink, ⟨_, rows, hrows⟩ | ⟨message, hrefused, he⟩⟩
    · cases hrows
    · cases he
      exact ⟨hlink, .inr ⟨message, hrefused, rfl, rfl⟩⟩
  · rintro ⟨hlink, ⟨haccepted, _⟩ | ⟨message, _, he⟩⟩
    · exact ⟨(link_answer ..).trans hlink, .inl ⟨haccepted, rfl, tally_answer ..⟩⟩
    · cases he

section Transactional

variable (htransactional : p.transactional = true) (hsimulated : p.simulated = false)

include htransactional hsimulated

/-- Where a failure is listed, a statement is not sent. -/
theorem send_of_failures (hfailures : s.failures ≠ []) (st : Statement) :
    (send w p st s).1 = .ok () ∧ (send w p st s).2.link = s.link ∧
      (send w p st s).2.failures = s.failures := by
  have hempty : s.failures.isEmpty = false := List.isEmpty_eq_false_iff.mpr hfailures
  unfold send
  simp only [hsimulated, failures_noteIf, htransactional, hempty]
  exact ⟨rfl, link_noteIf .., failures_noteIf ..⟩

/-- Otherwise it is. -/
theorem send_of_noFailures (hfailures : s.failures = []) (st : Statement) :
    ∃ s' : State, s'.link = s.link ∧ s'.failures = [] ∧ send w p st s = post w p st s' := by
  refine ⟨s.noteIf (p.isAbove 1) .debug (statementNotice st), link_noteIf ..,
    by rw [failures_noteIf, hfailures], ?_⟩
  unfold send
  simp only [hsimulated, failures_noteIf, htransactional, hfailures]
  rfl

/-- **A statement that is handled is done**, or its refusal is a failure that is reported. -/
theorem send_feeding (h : Feeding w p t done s) (st : Statement) :
    ((send w p st s).1 = .ok () ∧ Feeding w p t (done ++ [.ok (some st)]) (send w p st s).2) ∨
      ∃ e, (send w p st s).1 = .error e ∧ e.isReported = true ∧
        InTransaction w p t (send w p st s).2.link := by
  by_cases hfailures : s.failures = []
  · obtain ⟨s', hlink, hfailures', hsend⟩ :=
      send_of_noFailures htransactional hsimulated hfailures st
    rw [hsend]
    have hinside : InTransaction w p t s'.link := hlink ▸ h.inside
    obtain ⟨hpost, hanswer⟩ := post_cases (w := w) (p := p) hinside.session (hinside.call st)
    rw [hinside.transaction] at hpost
    rcases hanswer with ⟨haccepted, hok, _⟩ | ⟨message, _, he, _⟩
    · refine .inl ⟨hok, ?_, fun _ => ?_⟩
      · rw [hpost]
        exact hinside.run st.query st.parameters
      · rw [hpost, hlink]
        rw [hlink] at haccepted
        exact (h.clean hfailures).send (accepts_of_refusal? haccepted)
    · refine .inr ⟨_, he, rfl, ?_⟩
      rw [hpost]
      exact hinside.run st.query st.parameters
  · obtain ⟨hok, hlink, hlisted⟩ := send_of_failures htransactional hsimulated hfailures st
    refine .inl ⟨hok, InTransaction.failed (hlink ▸ h.inside) ?_⟩
    rw [hlisted]
    exact hfailures

/-- **An instruction that is written is done**, or its failure is one that is reported. -/
theorem write_feeding (h : Feeding w p t done s) (instruction : Text) :
    ((write w p instruction s).1 = .ok () ∧
        Feeding w p t (done ++ [compile w p instruction]) (write w p instruction s).2) ∨
      ∃ e, (write w p instruction s).1 = .error e ∧ e.isReported = true ∧
        InTransaction w p t (write w p instruction s).2.link := by
  unfold write compile
  cases hread : Instruction.read w.parser instruction with
  | error e => exact .inr ⟨e, rfl, isReported_read hread, h.inside⟩
  | ok i =>
    dsimp only [Except.map]
    cases hstatement : Statement.ofInstruction p.keepBlank i with
    | none => exact .inl ⟨rfl, h.inside, fun he => (h.clean he).skip⟩
    | some st => exact send_feeding htransactional hsimulated h st

/-- **Handling an expansion ends well, and it is done.** A failure of it is listed. -/
theorem handle_feeding (h : Feeding w p t done s) (x : Expanded) :
    (handle w p x s).1 = .ok () ∧
      Feeding w p t (done ++ [x.instruction.bind (compile w p)]) (handle w p x s).2 := by
  have hshown : Feeding w p t done (s.showLine p x.line) :=
    h.of_eq (link_showLine ..) (failures_showLine ..)
  unfold handle
  cases hx : x.instruction with
  | error e => exact ⟨rfl, InTransaction.failed hshown.inside (failures_fail _ x.line e)⟩
  | ok instruction =>
    dsimp only
    generalize hs' : (if p.output = .interpolated then (s.showLine p x.line).print instruction
      else s.showLine p x.line) = s'
    have hprinted : Feeding w p t done s' := by
      rw [← hs']
      split
      · exact hshown.of_eq rfl rfl
      · exact hshown
    rcases write_feeding htransactional hsimulated hprinted instruction with
      ⟨hok, hdone⟩ | ⟨e, he, hreported, hinside⟩
    · rw [listing_of_ok hok]
      exact ⟨hok, hdone⟩
    · rw [listing_of_reported he hreported]
      exact ⟨rfl, InTransaction.failed hinside (failures_fail _ x.line e)⟩

/-- **Expansions that are handled in order are done.** -/
theorem handleAll_feeding (xs : List Expanded) (h : Feeding w p t done s) :
    (handleAll w p xs s).1 = .ok () ∧
      Feeding w p t (done ++ xs.map fun x => x.instruction.bind (compile w p))
        (handleAll w p xs s).2 := by
  induction xs generalizing done s with
  | nil => exact ⟨rfl, by rw [List.map_nil, List.append_nil]; exact h⟩
  | cons x xs ih =>
    obtain ⟨hok, hone⟩ := handle_feeding htransactional hsimulated h x
    rw [handleAll, Ending.andThen_of_ok hok, List.map_cons, List.append_cons]
    exact ih hone

/-! ## 6. All lines -/

/-- **A batch of lines that is worked off is done.** -/
theorem workOff_feeding {n : Int} (hn : p.batches.size.index = .ok n) (hpos : 0 < n)
    (hworkers : p.batches.hasWorkers = true) (template : Text) (number : Nat) (batch : List Line)
    (h : Feeding w p t done s) :
    (workOff w p template number batch s).1 = .ok () ∧
      Feeding w p t (done ++ batch.map (lineResult w p template))
        (workOff w p template number batch s).2 := by
  obtain ⟨report, hreport⟩ := Batch.process_of_hasWorkers (expandOne w p template) hn hpos
    hworkers (fun _ => w.orders number) batch
  obtain ⟨hresults, herrors⟩ := Batch.report_process hn (Int.le_of_lt hpos) hreport
  unfold workOff
  simp only [hreport]
  generalize hs' : ({ s.recordAll _ with commands := _ } : State) = s'
  have hs : Feeding w p t done s' := by
    rw [← hs']
    exact h.of_eq (link_recordAll ..) (failures_recordAll ..)
  obtain ⟨hok, hdone⟩ := handleAll_feeding htransactional hsimulated report.results hs
  rw [Ending.andThen_of_ok hok]
  refine ⟨rfl, ?_⟩
  by_cases hnone : report.errors = []
  · let handled : Except Error Expanded → Except Error (Option Statement) :=
      fun r => r.bind fun x => x.instruction.bind (compile w p)
    have hlines : batch.map (lineResult w p template)
        = report.results.map fun x => x.instruction.bind (compile w p) := by
      rw [hnone] at herrors
      calc batch.map (lineResult w p template)
          = (batch.map (expandOne w p template)).map handled := by
            rw [List.map_map]
            exact List.map_congr_left fun line _ => lineResult_eq template line
        _ = (report.results.map Except.ok).map handled := by
            rw [Batch.outcomes_of_noErrors herrors.symm, hresults]
        _ = report.results.map fun x => x.instruction.bind (compile w p) := by
            rw [List.map_map]
            rfl
    rw [hlines, hnone]
    exact hdone
  · refine InTransaction.failed ?_ ?_
    · rw [Ending.well, link_failAll]
      exact hdone.inside
    · rw [Ending.well, failures_failAll]
      exact List.append_ne_nil_of_right_ne_nil _ (by rwa [ne_eq, List.map_eq_nil_iff])

/-- **Batches that are worked off are done.** -/
theorem workOffAll_feeding {n : Int} (hn : p.batches.size.index = .ok n) (hpos : 0 < n)
    (hworkers : p.batches.hasWorkers = true) (template : Text) (parts : List (List Line))
    (number : Nat) (h : Feeding w p t done s) :
    (workOffAll w p template number parts s).1 = .ok () ∧
      Feeding w p t (done ++ parts.flatten.map (lineResult w p template))
        (workOffAll w p template number parts s).2 := by
  induction parts generalizing number done s with
  | nil => exact ⟨rfl, by rw [List.flatten_nil, List.map_nil, List.append_nil]; exact h⟩
  | cons batch parts ih =>
    obtain ⟨hok, hone⟩ := workOff_feeding htransactional hsimulated hn hpos hworkers template
      number batch h
    rw [workOffAll, Ending.andThen_of_ok hok, List.flatten_cons, List.map_append,
      ← List.append_assoc]
    exact ih (number + 1) hone

/-- Lines for which batches are made are done. -/
theorem processLines_of_batches (hbatches : makesBatches p = true) (template : Text)
    (lines : List Text) (h : Feeding w p t [] s) :
    (processLines w p template lines s).1 = .ok () ∧
      Feeding w p t ((number lines).map (lineResult w p template))
        (processLines w p template lines s).2 := by
  obtain ⟨n, parts, hn, hpos, hworkers, hflatten, hwork⟩ :=
    processLines_of_makesBatches hbatches w template lines s
  obtain ⟨hok, hdone⟩ := workOffAll_feeding htransactional hsimulated hn hpos hworkers template parts 0 h
  rw [hflatten, List.nil_append] at hdone
  rw [hwork]
  exact ⟨hok, hdone⟩

/-- **After a run has fed, the transaction holds what its lines come to**, or a failure is listed.
    If feeding ends in a failure itself, none is listed. -/
theorem feed_feeding {template : Text} (htemplate : template ≠ []) (lines : Option (List Text))
    (h : Feeding w p t [] s) (hfailures : s.failures = []) :
    Feeding w p t (results w p template lines) (feed w p template lines s).2 ∧
      ((feed w p template lines s).1 = .ok () ∨ (feed w p template lines s).2.failures = []) := by
  have hempty : template.isEmpty = false := List.isEmpty_eq_false_iff.mpr htemplate
  unfold feed
  simp only [hempty]
  cases lines with
  | none =>
    obtain ⟨hok, hdone⟩ := handle_feeding htransactional hsimulated h ⟨none, .ok template⟩
    exact ⟨hdone, .inl hok⟩
  | some lines =>
    dsimp only [results, readLines]
    generalize hs' : s.noteIf (p.isAbove 0) .debug _ = s'
    have hs : Feeding w p t [] s' := by
      rw [← hs']
      exact h.of_eq (link_noteIf ..) (failures_noteIf ..)
    have hnone : s'.failures = [] := by
      rw [← hs', failures_noteIf]
      exact hfailures
    cases hbatches : makesBatches p with
    | true =>
      obtain ⟨hok, hdone⟩ :=
        processLines_of_batches htransactional hsimulated hbatches template lines hs
      exact ⟨hdone, .inl hok⟩
    | false =>
      obtain ⟨hlink, hledger, _⟩ := processLines_of_noBatches (w := w) hbatches template lines s'
      have hlisted := congrArg Ledger.failures hledger
      exact ⟨hs.of_eq hlink hlisted, .inr (Eq.trans hlisted hnone)⟩

end Transactional

end GraphFeed.Run
