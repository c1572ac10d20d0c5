import GraphFeed.Proofs.Conclusion

/-!
# Simulated runs

A simulated run sends nothing, and it predicts what a run without a transaction does where the
database refuses nothing: that run ends in the same way, prints the same, counts the same and lists
the same failures (`simulation_predicts`).

The two runs go side by side, part by part, and after each part the state of the simulated run
`Mirrors` that of the other: it has sent nothing, and their ledgers are the same.

* `send_mirrored`, `handle_mirrored`: a statement is counted in the one run and answered in the other;
* `workOff_mirrored`, `feed_mirrored`: the lines, whatever the order in which workers finish;
* `openGraph_mirrored`, `finish_mirrored`, `recover_mirrored`, `closing_mirrored`: what only the other
  run sends leads to nothing that is counted, listed or printed;
* `run_mirrored`: so it is with whole runs.
-/

namespace GraphFeed

/-! ## 1. Settings -/

/-- The settings for a simulated run. -/
def Settings.simulating (settings : Settings) : Settings
  | .testOnly => .bool true
  | setting => settings setting

/-- The settings for a run that writes without a transaction. -/
def Settings.streaming (settings : Settings) : Settings
  | .testOnly => .bool false
  | .stream => .bool true
  | setting => settings setting

theorem Settings.simulating_of_ne (settings : Settings) (setting : Setting)
    (htestOnly : setting ≠ .testOnly) (_ : setting ≠ .stream) :
    settings.simulating setting = settings setting := by
  cases setting <;> first | rfl | exact absurd rfl htestOnly

theorem Settings.streaming_of_ne (settings : Settings) (setting : Setting)
    (htestOnly : setting ≠ .testOnly) (hstream : setting ≠ .stream) :
    settings.streaming setting = settings setting := by
  cases setting <;> first | rfl | exact absurd rfl htestOnly | exact absurd rfl hstream

namespace Plan

/-- The plan with everything simulated. -/
def simulating (p : Plan) : Plan := { p with simulated := true }

/-- The plan with everything written, without a transaction. -/
def streaming (p : Plan) : Plan := { p with simulated := false, transactional := false }

/-- The output mode that a setting names is the one that is read from it. -/
theorem ofValue?_of_readOutput {v : Value} {mode : OutputMode} (h : readOutput v = .ok mode) :
    OutputMode.ofValue? v = some mode := by
  unfold readOutput at h
  cases hmode : OutputMode.ofValue? v with
  | none => rw [hmode] at h; cases h
  | some mode' => rw [hmode] at h; cases h; rfl

/-- Settings that differ only in whether and how statements are sent make plans that do. -/
theorem ofSettings_rerouted {settings settings' : Settings}
    (h : ∀ setting, setting ≠ .testOnly → setting ≠ .stream → settings' setting = settings setting)
    (host : Host) :
    ofSettings settings' host = (ofSettings settings host).map fun p => { p with
      simulated := (settings' .testOnly).isTrue
      transactional := !(settings' .stream).isTrue } := by
  unfold ofSettings
  simp (disch := decide) only [h]
  cases readOutput (settings .output) with
  | error e => rfl
  | ok output =>
    cases readMark .delimiter (settings .separator) with
    | error e => rfl
    | ok delimiter =>
      cases readMark .quote (settings .quote) with
      | error e => rfl
      | ok quote => cases readStrategy (settings .jobs) <;> rfl

end Plan

end GraphFeed

namespace GraphFeed.Run

open GraphFeed.Graph

/-! ## 2. States side by side -/

/-- **One state mirrors another**: it has sent nothing, and it has counted, listed, kept and printed
    what the other has. -/
structure Mirrors (s s' : State) : Prop where
  silent : s.connection.calls = []
  ledger : s'.ledger = s.ledger

/-- One ending mirrors another: they end in the same way, in states that do. -/
structure Ending.Mirrors (r r' : Ending) : Prop where
  ending : r'.1 = r.1
  states : Run.Mirrors r.2 r'.2

variable {w w' : Surroundings} {p : Plan} {s s' t t' : State} {r r' : Ending} {template : Text}

namespace Mirrors

/-- What sends nothing in the one run, and does the same to both ledgers, keeps the mirror. -/
theorem step (h : Mirrors s s') (f : Ledger → Ledger) (hlink : t.link = s.link)
    (ht : t.ledger = f s.ledger) (ht' : t'.ledger = f s'.ledger) : Mirrors t t' where
  silent := (congrArg Link.calls hlink).trans h.silent
  ledger := by rw [ht, ht', h.ledger]

theorem noteIf (h : Mirrors s s') (condition condition' : Bool) (level level' : Level)
    (message message' : Text) :
    Mirrors (s.noteIf condition level message) (s'.noteIf condition' level' message') :=
  h.step id (link_noteIf ..) (ledger_noteIf ..) (ledger_noteIf ..)

theorem fail (h : Mirrors s s') (line : Option Line) (e : Error) :
    Mirrors (s.fail line e) (s'.fail line e) :=
  h.step (fun l => { l with failures := l.failures ++ [⟨line, e⟩] }) rfl rfl rfl

theorem failAll (errors : List (Line × Error)) :
    ∀ {s s' : State}, Mirrors s s' → Mirrors (s.failAll errors) (s'.failAll errors) := by
  induction errors with
  | nil => exact id
  | cons d errors ih => exact fun h => ih (h.fail (some d.1) d.2)

theorem shown (h : Mirrors s s') (x : Expanded) :
    Mirrors (s.shown p.simulating x) (s'.shown p.streaming x) :=
  h.step (fun l => { l with printed := shownLines p.output x ++ l.printed }) (link_shown ..)
    (ledger_shown ..) (ledger_shown ..)

theorem summarize (h : Mirrors s s') :
    Mirrors (summarize w p.simulating s) (summarize w' p.streaming s') :=
  h.step id (link_summarize ..) (ledger_summarize ..) (ledger_summarize ..)

theorem printPending (h : Mirrors s s') : Mirrors (printPending s) (printPending s') := by
  rw [printPending_eq, printPending_eq]
  exact h.step (fun l => { l with
    printed := (l.pending.map fun rows => (Value.list rows).json).reverse ++ l.printed
    pending := [] }) rfl rfl rfl

theorem failures (h : Mirrors s s') : s'.failures = s.failures := congrArg Ledger.failures h.ledger

end Mirrors

namespace Ending.Mirrors

theorem well (h : Run.Mirrors s s') : (Ending.well s).Mirrors (.well s') := ⟨rfl, h⟩

theorem error (e : Error) (h : Run.Mirrors s s') : Ending.Mirrors (.error e, s) (.error e, s') :=
  ⟨rfl, h⟩

theorem andThen {next next' : State → Ending} (h : r.Mirrors r')
    (hnext : ∀ {s s'}, Run.Mirrors s s' → (next s).Mirrors (next' s')) :
    (r.andThen next).Mirrors (r'.andThen next') := by
  obtain ⟨hend, hstates⟩ := h
  cases hr : r.1 with
  | error e =>
    rw [Ending.andThen_of_error hr, Ending.andThen_of_error (hend.trans hr)]
    exact ⟨hend, hstates⟩
  | ok _ =>
    rw [Ending.andThen_of_ok hr, Ending.andThen_of_ok (hend.trans hr)]
    exact hnext hstates

theorem listing (h : r.Mirrors r') (line : Option Line) :
    (r.listing line).Mirrors (r'.listing line) := by
  obtain ⟨e | _, s⟩ := r
  · obtain ⟨_, s'⟩ := r'
    obtain ⟨rfl, hstates⟩ := h
    unfold Ending.listing
    dsimp only
    split
    · exact .well (hstates.fail line e)
    · exact .error e hstates
  · obtain ⟨_, s'⟩ := r'
    obtain ⟨rfl, hstates⟩ := h
    exact .well hstates

end Ending.Mirrors

/-! ## 3. Statements -/

section Feeding

variable (hserver : AcceptsAll w'.server) (houtput : p.output ≠ .json) (hparser : w'.parser = w.parser)

include hserver houtput

/-- **A statement is counted in the one run and answered in the other.** -/
theorem send_mirrored (h : Mirrors s s') (st : Statement) :
    (send w p.simulating st s).Mirrors (send w' p.streaming st s') := by
  have hsimulated : send w p.simulating st s = .well { s.note .info (statementNotice st) with
      expressions := s.expressions + 1 } := rfl
  -- in the simulated run nothing is withheld behind a failure, and without a transaction neither
  let noted := s'.noteIf (p.streaming.isAbove 1) .debug (statementNotice st)
  have hsent : send w' p.streaming st s' = post w' p.streaming st noted := send_eq rfl st s'
  have hledger : noted.ledger = s'.ledger := ledger_noteIf ..
  obtain ⟨rows, hrows⟩ := hserver.run noted.connection st.query st.parameters
  rw [hsimulated, hsent]
  unfold post
  revert hrows
  rcases noted.connection.run w'.server st.query st.parameters with ⟨_ | rows', c⟩
  · exact nofun
  · intro _
    refine .well (h.step (fun l => { l with expressions := l.expressions + 1 }) rfl rfl ?_)
    rw [ledger_answer (p := p.streaming) _ houtput, ← hledger]
    rfl

include hparser

/-- **So are expansions**, and what they print and list is the same. -/
theorem handle_mirrored (h : Mirrors s s') (x : Expanded) :
    (handle w p.simulating x s).Mirrors (handle w' p.streaming x s') := by
  have hshown : Mirrors (s.shown p.simulating x) (s'.shown p.streaming x) := h.shown x
  have hcompile : compile w' p = compile w p := by
    unfold compile
    rw [hparser]
  cases hx : x.instruction.bind (compile w p) with
  | error e =>
    have hx' : x.instruction.bind (compile w' p) = .error e := hcompile ▸ hx
    rw [handle_of_error (p := p.simulating) hx, handle_of_error (p := p.streaming) hx']
    exact .well (hshown.fail x.line e)
  | ok statement? =>
    have hx' : x.instruction.bind (compile w' p) = .ok statement? := hcompile ▸ hx
    cases statement? with
    | none =>
      obtain ⟨notice, hhandle⟩ := handle_of_none (w := w) (p := p.simulating) hx s
      obtain ⟨notice', hhandle'⟩ := handle_of_none (w := w') (p := p.streaming) hx' s'
      rw [hhandle, hhandle']
      exact .well (hshown.step (fun l => { l with skipped := l.skipped + 1 }) rfl rfl rfl)
    | some st =>
      rw [handle_of_some (p := p.simulating) hx, handle_of_some (p := p.streaming) hx']
      exact (send_mirrored hserver houtput hshown st).listing x.line

theorem handleAll_mirrored (xs : List Expanded) : ∀ {s s' : State}, Mirrors s s' →
    (handleAll w p.simulating xs s).Mirrors (handleAll w' p.streaming xs s') := by
  induction xs with
  | nil => exact .well
  | cons x xs ih => exact fun h => (handle_mirrored hserver houtput hparser h x).andThen ih

/-! ## 4. Lines -/

variable (hrunner : w'.runner = w.runner)

include hrunner

/-- **A batch of lines is worked off alike**, in whatever order its workers finish. -/
theorem workOff_mirrored (h : Mirrors s s') (number : Nat) (batch : List Line) :
    (workOff w p.simulating template number batch s).Mirrors
      (workOff w' p.streaming template number batch s') := by
  have hexpand : expandOne w' p.streaming template = expandOne w p.simulating template := by
    funext line
    unfold expandOne expansion
    rw [hrunner]
    rfl
  have hreport : (p.streaming.batches.process (expandOne w' p.streaming template)
        (fun _ => w'.orders number) batch).report
      = (p.simulating.batches.process (expandOne w p.simulating template)
        (fun _ => w.orders number) batch).report := by
    rw [hexpand]
    exact Batch.report_orders _ p.batches (fun _ => w.orders number) (fun _ => w'.orders number) batch
  unfold workOff
  dsimp only
  rw [hreport]
  generalize ht : ({ s.recordAll _ with commands := _ } : State) = t
  generalize ht' : ({ s'.recordAll _ with commands := _ } : State) = t'
  have hlogged : Mirrors t t' := by
    rw [← ht, ← ht']
    exact h.step id (link_recordAll ..) (ledger_recordAll ..) (ledger_recordAll ..)
  split
  · exact .error _ hlogged
  · rename_i report _
    exact (handleAll_mirrored hserver houtput hparser report.results hlogged).andThen
      fun h => .well (h.failAll report.errors)

theorem workOffAll_mirrored (parts : List (List Line)) : ∀ {s s' : State} (number : Nat),
    Mirrors s s' → (workOffAll w p.simulating template number parts s).Mirrors
      (workOffAll w' p.streaming template number parts s') := by
  induction parts with
  | nil => exact fun _ => .well
  | cons batch parts ih =>
    exact fun number h => (workOff_mirrored hserver houtput hparser hrunner h number batch).andThen
      (ih (number + 1))

/-- **What is fed is fed alike.** -/
theorem feed_mirrored (h : Mirrors s s') (lines : Option (List Text)) :
    (feed w p.simulating template lines s).Mirrors (feed w' p.streaming template lines s') := by
  unfold feed
  cases lines with
  | none =>
    dsimp only
    split
    · exact .well h
    · exact handle_mirrored hserver houtput hparser h _
  | some lines =>
    dsimp only
    split
    · exact .well (h.step id rfl rfl rfl)
    · unfold processLines
      rw [show p.simulating.lineLimit = p.streaming.lineLimit from rfl]
      cases p.streaming.lineLimit with
      | error e => exact .error e (h.noteIf ..)
      | ok limit => exact workOffAll_mirrored hserver houtput hparser hrunner _ 0 (h.noteIf ..)

end Feeding

/-! ## 5. Beginning and end -/

/-- A simulated run uses no transaction, even if its plan wants one. -/
theorem usesTransaction_simulating (p : Plan) : usesTransaction p.simulating = false :=
  Bool.and_false p.transactional

theorem usesTransaction_streaming (p : Plan) : usesTransaction p.streaming = false := rfl

/-- Only the other run is connected. -/
theorem openGraph_mirrored (hserver : AcceptsAll w'.server) (h : Mirrors s s') :
    (openGraph w p.simulating s).Mirrors (openGraph w' p.streaming s') := by
  let noted := s'.noteIf (p.streaming.isAbove 0) .debug
    ("Connecting to Neo4j @ " ++ s'.connection.address.uri.shown)
  let connected := noted.onConnection fun c => c.connect w'.server
  have hnoted : noted.ledger = s'.ledger := ledger_noteIf ..
  have hok : connected.1 = .ok () := hserver.refusesStatementsOnly.connect noted.connection
  have hopened : openGraph w' p.streaming s' = connected.andThen fun s => .well s := rfl
  rw [hopened, Ending.andThen_of_ok hok]
  exact .well (h.step id rfl rfl hnoted)

theorem abort_mirrored (h : Mirrors s s') :
    Mirrors (abort w p.simulating s) (abort w' p.streaming s') := by
  rw [abort, abort, usesTransaction_simulating, usesTransaction_streaming]
  exact h

/-- A query at the end that a simulated run can log, any run can. -/
theorem canLogEndQuery_streaming (h : canLogEndQuery p.simulating = true) :
    canLogEndQuery p.streaming = true := by
  unfold canLogEndQuery at h ⊢
  rw [show p.streaming.endQuery = p.simulating.endQuery from rfl]
  revert h
  cases p.simulating.endQuery with
  | none => exact fun _ => rfl
  | some query =>
    cases query with
    | text t => exact fun _ => rfl
    | null | bool | int | float | list | mapping =>
      dsimp only
      rw [show p.simulating.simulated = true from rfl, Bool.or_true]
      exact nofun

/-- The query at the end is sent by the other run only, and its rows are not wanted. -/
theorem runEndQuery_mirrored (hserver : AcceptsAll w'.server) (houtput : p.output ≠ .json)
    (hshow : p.showResults = false) (hlog : canLogEndQuery p.simulating = true) (h : Mirrors s s')
    {query : Value} (hquery : p.endQuery = some query) :
    (runEndQuery w p.simulating query s).Mirrors (runEndQuery w' p.streaming query s') := by
  have hwanted : ¬(p.streaming.showResults = true ∨ p.streaming.output = .json) := by
    rintro (hresults | hjson)
    · exact Bool.false_ne_true (hshow.symm.trans hresults)
    · exact houtput hjson
  have hlog' : canLogEndQuery p.streaming = true := canLogEndQuery_streaming hlog
  unfold runEndQuery
  dsimp only
  rw [Ending.andThen_of_ok (logEndQuery_of_can hlog hquery _),
    Ending.andThen_of_ok (logEndQuery_of_can hlog' hquery _),
    if_pos (show p.simulating.simulated = true from rfl),
    if_neg (show ¬p.streaming.simulated = true from Bool.false_ne_true)]
  generalize ht : (logEndQuery p.simulating query _).2 = t
  generalize ht' : (logEndQuery p.streaming query _).2 = t'
  have hnoted : Mirrors t t' := by
    rw [← ht, ← ht']
    exact (h.noteIf ..).step id (link_logEndQuery ..) (ledger_logEndQuery ..) (ledger_logEndQuery ..)
  obtain ⟨rows, hrows⟩ := hserver.execute t'.connection query []
  unfold postAlone
  revert hrows
  rcases t'.connection.execute w'.server query [] with ⟨_ | rows', c⟩
  · exact nofun
  · intro _
    dsimp only
    rw [if_neg (by simpa using hwanted)]
    exact .well (hnoted.step id rfl rfl rfl)

theorem finish_mirrored (hserver : AcceptsAll w'.server) (houtput : p.output ≠ .json)
    (hshow : p.showResults = false) (hlog : canLogEndQuery p.simulating = true) (h : Mirrors s s') :
    (finish w p.simulating s).Mirrors (finish w' p.streaming s') := by
  unfold finish
  dsimp only
  rw [usesTransaction_simulating, usesTransaction_streaming]
  have hsummed : Mirrors (printPending (summarize w p.simulating s))
      (printPending (summarize w' p.streaming s')) := h.summarize.printPending
  rw [show p.simulating.endQuery = p.streaming.endQuery from rfl]
  cases hquery : p.streaming.endQuery with
  | none => exact .well hsummed
  | some query => exact runEndQuery_mirrored (w := w) hserver houtput hshow hlog hsummed hquery

theorem recover_mirrored (h : r.Mirrors r') :
    (recover w p.simulating r).Mirrors (recover w' p.streaming r') := by
  obtain ⟨e | _, s⟩ := r
  · obtain ⟨_, s'⟩ := r'
    obtain ⟨rfl, hstates⟩ := h
    unfold recover
    dsimp only
    split
    · refine .well (abort_mirrored ?_)
      exact hstates.step (fun l => { l with failures := l.failures ++ [⟨none, e⟩] }) rfl rfl rfl
    · exact .error e hstates
  · obtain ⟨_, s'⟩ := r'
    obtain ⟨rfl, hstates⟩ := h
    exact .well hstates

/-- Only the connection of the other run is closed, and that succeeds. -/
theorem closing_mirrored (hserver : AcceptsAll w'.server) (h : r.Mirrors r') :
    (closing w p.simulating r).Mirrors (closing w' p.streaming r') := by
  have hnone : closing w p.simulating r = r := rfl
  obtain ⟨c, hclosed⟩ := closing_of_accepted (p := p.streaming) hserver.refusesStatementsOnly r'
  rw [hnone, hclosed]
  exact ⟨h.ending, h.states.step id rfl rfl rfl⟩

/-! ## 6. Whole runs -/

/-- **A simulated run mirrors a run without a transaction** that meets the same parser, the same
    commands and a database that refuses nothing, if what the database answers is not to be printed
    and the query at the end can be logged. -/
theorem run_mirrored (hparser : w'.parser = w.parser) (hrunner : w'.runner = w.runner)
    (hserver : AcceptsAll w'.server) (houtput : p.output ≠ .json) (hshow : p.showResults = false)
    (hlog : canLogEndQuery p.simulating = true) (template : Text) (lines : Option (List Text)) :
    (run w p.simulating template lines).Mirrors (run w' p.streaming template lines) := by
  have hstart : Mirrors (.start p.address) (.start p.address) := ⟨rfl, rfl⟩
  have hbody : ∀ {s s'}, Mirrors s s' →
      (body w p.simulating template lines s).Mirrors (body w' p.streaming template lines s') := by
    intro s s' h
    refine (openGraph_mirrored hserver h).andThen fun h => ?_
    refine (feed_mirrored hserver houtput hparser hrunner h lines).andThen fun h => ?_
    -- both runs conclude in the same way, because they have listed the same failures
    rw [h.failures]
    split
    · exact finish_mirrored hserver houtput hshow hlog h
    · exact .well (abort_mirrored h)
  unfold run
  dsimp only
  rw [show p.simulating.checkVerbosity = p.streaming.checkVerbosity from rfl]
  cases p.streaming.checkVerbosity with
  | error e =>
    dsimp only
    exact .error e (hstart.noteIf ..)
  | ok _ => exact closing_mirrored hserver (recover_mirrored (hbody ((hstart.noteIf ..).noteIf ..)))

/-- What can be seen of a mirror is what can be seen of the other, but for the calls. -/
theorem Ending.Mirrors.visible (h : r.Mirrors r') : r.visible = { r'.visible with calls := [] } := by
  obtain ⟨hend, hsilent, hledger⟩ := h
  have hprinted : r'.2.printed = r.2.printed := congrArg Ledger.printed hledger
  have hexpressions : r'.2.expressions = r.2.expressions := congrArg Ledger.expressions hledger
  have hskipped : r'.2.skipped = r.2.skipped := congrArg Ledger.skipped hledger
  have hfailures : r'.2.failures = r.2.failures := congrArg Ledger.failures hledger
  unfold Ending.visible State.output
  rw [hend, hsilent, hprinted, hexpressions, hskipped, hfailures]

/-- A query at the end that is a text, or counts as false, can be logged. -/
theorem canLogEndQuery_of_setting {query : Value}
    (hquery : query.kind = .text ∨ query.isTrue = false)
    (h : p.endQuery = if query.isTrue then some query else none) :
    canLogEndQuery p = true := by
  unfold canLogEndQuery
  rw [h]
  cases htrue : query.isTrue with
  | false => rfl
  | true =>
    have hkind : query.kind = .text := hquery.resolve_right (by rw [htrue]; exact nofun)
    cases query with
    | text t => rfl
    | null | bool | int | float | list | mapping => cases hkind

/-- **A simulated run predicts the real one.** It sends nothing, and it ends in the same way, prints
    the same, counts the same and lists the same failures as the run of the same settings without
    a transaction, where that meets a database that refuses nothing. The database of the simulated run
    may be any, and workers may finish in any order. The query at the end is a text, or counts as
    false. -/
theorem simulation_predicts (w w' : Surroundings) (hparser : w'.parser = w.parser)
    (hrunner : w'.runner = w.runner) (hserver : AcceptsAll w'.server) (settings : Settings) (host : Host)
    (houtput : OutputMode.ofValue? (settings .output) ≠ some .json)
    (hshow : (settings .showResults).isTrue = false)
    (hquery : (settings .endQuery).kind = .text ∨ (settings .endQuery).isTrue = false)
    (template : Text) (lines : Option (List Text)) :
    visibleOf w settings.simulating host template lines
      = (visibleOf w' settings.streaming host template lines).map fun seen =>
          { seen with calls := [] } := by
  have hsimulating := Plan.ofSettings_rerouted settings.simulating_of_ne host
  have hstreaming := Plan.ofSettings_rerouted settings.streaming_of_ne host
  unfold visibleOf
  rw [hsimulating, hstreaming]
  cases hp : Plan.ofSettings settings host with
  | error e => rfl
  | ok p =>
    obtain ⟨mode, _, _, _, hmode, _, _, _, hplan⟩ := ofSettings_eq_ok hp
    have hprinted : p.output ≠ .json := by
      intro hjson
      refine houtput ?_
      rw [Plan.ofValue?_of_readOutput hmode, ← hjson, hplan]
    have hresults : p.showResults = false := by rw [hplan]; exact hshow
    have hlog : canLogEndQuery p.simulating = true :=
      canLogEndQuery_of_setting hquery (by rw [hplan]; rfl)
    have hmirrors := run_mirrored (p := { p with transactional := !(settings .stream).isTrue })
      hparser hrunner hserver hprinted hresults hlog template lines
    exact congrArg Except.ok hmirrors.visible

/-- Of three lines the first is written, the second cannot be read and the third is passed over: so it
    is simulated by a database that would refuse everything, and so it is done by one that refuses
    nothing, which meets six calls. -/
theorem simulation_predicts_threeLines :
    let refusing : Surroundings := { obliging with server := fun _ _ => .error "refused" }
    let settings := (Settings.standard bareHost.processors).overlaid
      [(.text "output", .text "interpolated"), (.text "end_query", .text "RETURN 1")]
    let lines : Option (List Text) := some ["a", "c(", "d:''"]
    let real := visibleOf obliging settings.streaming bareHost "{1}" lines
    visibleOf refusing settings.simulating bareHost "{1}" lines
        = real.map (fun seen => { seen with calls := [] }) ∧
      real.toOption.map (fun seen => (seen.calls.length, seen.expressions, seen.skipped,
        seen.failures.length)) = some (6, 1, 1, 1) := by
  intro refusing settings lines real
  have houtput : OutputMode.ofValue? (settings .output) ≠ some .json := by decide +kernel
  have hshow : (settings .showResults).isTrue = false := by decide +kernel
  have hquery : (settings .endQuery).kind = .text := by decide +kernel
  refine ⟨simulation_predicts refusing obliging rfl rfl (fun _ _ => rfl) settings bareHost
    houtput hshow (.inl hquery) "{1}" lines, ?_⟩
  decide +kernel

end GraphFeed.Run
