import GraphFeed.Proofs.Fates

/-!
# Before and behind the lines

A run opens the connection, feeds its lines and concludes. The opening sends no statement, and what
concludes the run sends none but the query at the end; it counts nothing, and lists a failure of no
line, and that only if no line has failed.

* `Opens`: the run comes to its lines. `run_of_opens`: it is then its feeding, concluded;
* `Opened`: what the opening leaves;
* `Concluded`: what concludes a run, in as many statements outside of transactions as are told. The
  parts of it are `finish_concluded`, `abort_concluded`, `recover_concluded` and `closing_concluded`,
  and `conclude_concluded` puts them together;
* `conclude_returns_iff`: where the database refuses statements only, the run returns, unless it comes
  to a query that it cannot log;
* `run_told`: **so a run has a tale that accounts for it**.
-/

namespace GraphFeed.Run

open GraphFeed.Graph

variable {w : Surroundings} {p : Plan} {s s' s'' : State} {template : Text}

/-! ## 1. Before the lines -/

/-- **The run comes to its lines**: its verbosity can be used, and the connection is opened, with a
    transaction if there is to be one. -/
structure Opens (w : Surroundings) (p : Plan) : Prop where
  verbosity : p.checkVerbosity = .ok ()
  connection : (openGraph w p (.start p.address)).1 = .ok ()

/-- **What the opening leaves**: a session, a transaction if there is to be one, and nothing else. -/
structure Opened (p : Plan) (s : State) : Prop where
  tally : s.tally = (0, 0, [])
  session : s.link.session.isSome = true
  transaction : s.link.transaction.isSome = p.transactional
  calls : ∀ call ∈ s.link.calls,
    call.isPlain = true ∨ (p.transactional = true ∧ call.isBegin = true)

theorem openGraph_opened (hsimulated : p.simulated = false) (hlink : s.link = ⟨none, none, []⟩)
    (htally : s.tally = (0, 0, [])) (hok : (openGraph w p s).1 = .ok ()) :
    Opened p (openGraph w p s).2 := by
  obtain ⟨hledger, k, hplainly, hopening⟩ := openGraph_opening (w := w) hsimulated s
  have htally' := (tally_of_ledger hledger).trans htally
  rw [hlink] at hplainly
  obtain ⟨⟨more, hmore, hcalls⟩, hnone⟩ := hplainly
  have hplain : ∀ call ∈ k.calls, call.isPlain = true := by
    rw [hcalls, List.append_nil]
    exact hmore
  generalize hend : (openGraph w p s).1 = result at hopening hok
  generalize hlast : (openGraph w p s).2.link = k' at hopening
  cases hopening with
  | refused e => cases hok
  | plain hsession htransactional =>
    refine ⟨htally', by rw [hlast]; exact hsession, ?_, fun call hc => .inl ?_⟩
    · rw [hlast, hnone, htransactional]
      rfl
    · rw [hlast] at hc
      exact hplain call hc
  | begun hsession htransactional _ =>
    refine ⟨htally', ?_, ?_, fun call hc => ?_⟩
    · rw [hlast, hsession]
      rfl
    · rw [hlast, htransactional]
      rfl
    · rw [hlast] at hc
      rcases List.mem_cons.mp hc with rfl | hc
      · exact .inr ⟨htransactional, rfl⟩
      · exact .inl (hplain call hc)
  | notBegun => cases hok

/-- In a transaction, statements are sent by calls inside of it. -/
theorem Opened.ready_inside (htransactional : p.transactional = true) {s : State}
    (h : Opened p s) : Ready Call.inside? s.link := by
  obtain ⟨t, ht⟩ := Option.isSome_iff_exists.mp (h.transaction.trans htransactional)
  exact .inside h.session ht

/-- Without one they are sent by calls of their own. -/
theorem Opened.ready_alone (htransactional : p.transactional = false) {s : State}
    (h : Opened p s) : Ready Call.alone? s.link := by
  have hnone := Option.isSome_eq_false_iff.mp (h.transaction.trans htransactional)
  exact .alone h.session (Option.isNone_iff_eq_none.mp hnone)

/-- What the opening calls is no statement. -/
theorem inside?_of_opening (call : Call) (h : call.isPlain = true ∨ call.isBegin = true) :
    call.inside? = none := by
  cases call <;> first | rfl | (rcases h with h | h <;> cases h)

theorem alone?_of_opening (call : Call) (h : call.isPlain = true ∨ call.isBegin = true) :
    call.alone? = none := by
  cases call <;> first | rfl | (rcases h with h | h <;> cases h)

/-! ## 2. Behind the lines -/

/-- The calls that conclude a run: they close something, end the transaction of the run, or run the
    query at the end. -/
def Concludes (p : Plan) (call : Call) : Prop :=
  call.isPlain = true ∨ (usesTransaction p = true ∧ call.isEnd = true) ∨
    ∃ session last, p.endQuery = some last ∧ call = .runAlone session last []

/-- The calls in between conclude a run, and send at most `n` statements. -/
def ConcludingCalls (p : Plan) (n : Nat) (k k' : Link) : Prop :=
  ∃ more, k'.calls = more ++ k.calls ∧ (∀ call ∈ more, Concludes p call) ∧
    more.countP Call.isAlone ≤ n

/-- **What concludes a run** counts nothing, and lists a failure of no line, and that only if there is
    none yet. It sends at most `n` statements outside of transactions, and none inside. -/
structure Concluded (p : Plan) (n : Nat) (s s' : State) : Prop where
  expressions : s'.expressions = s.expressions
  skipped : s'.skipped = s.skipped
  failures : ∃ late, s'.failures = s.failures ++ late ∧ (∀ f ∈ late, f.line = none) ∧
    (s.failures ≠ [] → late = [])
  calls : ConcludingCalls p n s.link s'.link

namespace Concluded

variable {n m : Nat}

theorem of_tally (hcalls : ConcludingCalls p n s.link s'.link) (htally : s'.tally = s.tally) :
    Concluded p n s s' where
  expressions := congrArg (fun t => t.1) htally
  skipped := congrArg (fun t => t.2.1) htally
  failures := ⟨[], (congrArg (fun t => t.2.2) htally).trans (List.append_nil _).symm, nofun,
    fun _ => rfl⟩
  calls := hcalls

theorem refl (s : State) : Concluded p 0 s s :=
  of_tally ⟨[], rfl, nofun, Nat.le_refl 0⟩ rfl

theorem mono (h : Concluded p n s s') (hle : n ≤ m) : Concluded p m s s' := by
  obtain ⟨more, hmore, hconcludes, hcount⟩ := h.calls
  exact { h with calls := ⟨more, hmore, hconcludes, Nat.le_trans hcount hle⟩ }

theorem trans (h : Concluded p n s s') (h' : Concluded p m s' s'') : Concluded p (n + m) s s'' where
  expressions := h'.expressions.trans h.expressions
  skipped := h'.skipped.trans h.skipped
  failures := by
    obtain ⟨late, hlate, hlines, hfirst⟩ := h.failures
    obtain ⟨late', hlate', hlines', hfirst'⟩ := h'.failures
    refine ⟨late ++ late', by rw [hlate', hlate, List.append_assoc],
      List.forall_mem_append.mpr ⟨hlines, hlines'⟩, fun hne => ?_⟩
    have hnone := hfirst hne
    rw [hnone, List.append_nil] at hlate
    rw [hnone, hfirst' (by rwa [hlate])]
    rfl
  calls := by
    obtain ⟨more, hmore, hconcludes, hcount⟩ := h.calls
    obtain ⟨more', hmore', hconcludes', hcount'⟩ := h'.calls
    refine ⟨more' ++ more, by rw [hmore', hmore, List.append_assoc],
      List.forall_mem_append.mpr ⟨hconcludes', hconcludes⟩, ?_⟩
    rw [List.countP_append]
    omega

end Concluded

theorem isAlone_of_isPlain {call : Call} (h : call.isPlain = true) : call.isAlone = false := by
  cases call <;> first | rfl | cases h

theorem isAlone_of_isEnd {call : Call} (h : call.isEnd = true) : call.isAlone = false := by
  cases call <;> first | rfl | cases h

/-- Calls that open, check or close something conclude a run. -/
theorem Plainly.concluding {k k' : Link} (h : Plainly k k') : ConcludingCalls p 0 k k' := by
  obtain ⟨⟨more, hmore, hcalls⟩, _⟩ := h
  refine ⟨more, hcalls, fun call hc => .inl (hmore call hc), Nat.le_of_eq ?_⟩
  exact List.countP_eq_zero.mpr fun call hc =>
    ne_true_of_eq_false (isAlone_of_isPlain (hmore call hc))

/-- So does the query at the end, which is one statement. -/
theorem MaybeAlone.concluding {k k' : Link} {last : Value} (h : MaybeAlone last [] k k')
    (hquery : p.endQuery = some last) : ConcludingCalls p 1 k k' := by
  rcases h with h | ⟨between, session, h, h'⟩
  · obtain ⟨more, hcalls, hconcludes, hcount⟩ := Plainly.concluding (p := p) h
    exact ⟨more, hcalls, hconcludes, by omega⟩
  · obtain ⟨more, hcalls, hconcludes, hcount⟩ := Plainly.concluding (p := p) h
    obtain ⟨more', hcalls', hconcludes', hcount'⟩ := Plainly.concluding (p := p) h'
    have halone : Concludes p (.runAlone session last []) := .inr (.inr ⟨session, last, hquery, rfl⟩)
    refine ⟨more' ++ .runAlone session last [] :: more, ?_, ?_, ?_⟩
    · rw [hcalls', hcalls, List.append_assoc]
      rfl
    · exact List.forall_mem_append.mpr ⟨hconcludes', List.forall_mem_cons.mpr ⟨halone, hconcludes⟩⟩
    · rw [List.countP_append, List.countP_cons_of_pos rfl]
      omega

/-- The transaction of the run is ended by one call, if there is one. -/
theorem ConcludingCalls.of_end {k k' : Link} {call : Call} (huses : usesTransaction p = true)
    (hend : call.isEnd = true) (hcalls : k'.calls = call :: k.calls) : ConcludingCalls p 0 k k' := by
  refine ⟨[call], hcalls, fun c hc => ?_, ?_⟩
  · rw [List.mem_singleton.mp hc]
    exact .inr (.inl ⟨huses, hend⟩)
  · rw [List.countP_cons_of_neg (ne_true_of_eq_false (isAlone_of_isEnd hend))]
    exact Nat.le_refl 0

/-- Taking the transaction back concludes a run. -/
theorem abort_concluded (s : State) : Concluded p 0 s (abort w p s) := by
  unfold abort
  cases huses : usesTransaction p with
  | false => exact .refl s
  | true =>
    let noted := s.note .error "Rolling back: no changes were committed"
    cases ht : noted.connection.transaction with
    | none =>
      have hcalls := congrArg Connection.calls (noted.connection.rollback_of_none w.server ht)
      exact .of_tally ⟨[], hcalls, nofun, Nat.le_refl 0⟩ rfl
    | some t =>
      have hcalls := congrArg Link.calls (noted.connection.rollback_link w.server ht)
      exact .of_tally (.of_end huses rfl hcalls) rfl

/-- So does committing it. -/
theorem commit_concluded (huses : usesTransaction p = true) (s : State) :
    Concluded p 0 s (s.onConnection fun c => c.commit w.server).2 := by
  cases ht : s.connection.transaction with
  | none =>
    have hcommit : s.connection.commit w.server = (.ok (), s.connection) := by
      rw [Connection.commit, ht]
    have hcalls := congrArg (fun r => r.2.calls) hcommit
    exact .of_tally ⟨[], hcalls, nofun, Nat.le_refl 0⟩ rfl
  | some t =>
    have hcalls := congrArg Link.calls (s.connection.commit_link w.server ht).1
    exact .of_tally (.of_end huses rfl hcalls) rfl

theorem tally_postAlone (last : Value) (s : State) : (postAlone w p last s).2.tally = s.tally := by
  unfold postAlone
  dsimp only
  split
  · rfl
  · dsimp only [Ending.well]
    split <;> rfl

theorem tally_runEndQuery (last : Value) (s : State) :
    (runEndQuery w p last s).2.tally = s.tally := by
  unfold runEndQuery
  dsimp only
  generalize hs' : s.noteIf (p.isAbove 0) .debug _ = s'
  have hlogged : (logEndQuery p last s').2.tally = s.tally :=
    tally_of_ledger (by rw [ledger_logEndQuery, ← hs', ledger_noteIf])
  cases hlog : (logEndQuery p last s').1 with
  | error e =>
    rw [Ending.andThen_of_error hlog]
    exact hlogged
  | ok _ =>
    rw [Ending.andThen_of_ok hlog]
    split
    · exact hlogged
    · exact (tally_postAlone last _).trans hlogged

/-- Committing, and the query at the end, conclude a run. They list no failure. -/
theorem finish_concluded (hsimulated : p.simulated = false) (s : State) :
    Concluded p 1 s (finish w p s).2 ∧ (finish w p s).2.failures = s.failures := by
  let committed := if usesTransaction p then s.onConnection fun c => c.commit w.server else .well s
  have hcommitted : Concluded p 0 s committed.2 ∧ committed.2.failures = s.failures := by
    dsimp only [committed]
    split
    · rename_i huses
      exact ⟨commit_concluded huses s, rfl⟩
    · exact ⟨.refl s, rfl⟩
  change Concluded p 1 s (Ending.andThen committed _).2 ∧ (Ending.andThen committed _).2.failures = _
  cases hend : committed.1 with
  | error e =>
    rw [Ending.andThen_of_error hend]
    exact ⟨hcommitted.1.mono (Nat.zero_le 1), hcommitted.2⟩
  | ok _ =>
    rw [Ending.andThen_of_ok hend]
    let summed := printPending (summarize w p committed.2)
    have hlink : summed.link = committed.2.link := by rw [link_printPending, link_summarize]
    have htally : summed.tally = committed.2.tally :=
      (tally_printPending _).trans (tally_of_ledger (ledger_summarize ..))
    dsimp only
    cases hquery : p.endQuery with
    | none =>
      have hsummed : Concluded p 0 committed.2 summed :=
        .of_tally ⟨[], congrArg Link.calls hlink, nofun, Nat.le_refl 0⟩ htally
      exact ⟨(hcommitted.1.trans hsummed).mono (Nat.zero_le 1),
        (congrArg (fun t => t.2.2) htally).trans hcommitted.2⟩
    | some last =>
      have hlast : (runEndQuery w p last summed).2.tally = committed.2.tally :=
        (tally_runEndQuery last summed).trans htally
      have halone := runEndQuery_maybeAlone (w := w) (s := summed) hsimulated last
      rw [hlink] at halone
      exact ⟨hcommitted.1.trans (.of_tally (MaybeAlone.concluding halone hquery) hlast),
        (congrArg (fun t => t.2.2) hlast).trans hcommitted.2⟩

/-- Listing a failure that ends the run concludes it, if no failure is listed yet. -/
theorem recover_concluded {r : Ending} (h : r.1 = .ok () ∨ r.2.failures = []) :
    Concluded p 0 r.2 (recover w p r).2 := by
  obtain ⟨e | _, s⟩ := r
  · have hnone : s.failures = [] := h.resolve_left nofun
    unfold recover
    dsimp only
    split
    · refine (Concluded.trans (n := 0) (m := 0) ?_ (abort_concluded _))
      refine ⟨rfl, rfl, ⟨[⟨none, e⟩], rfl, ?_, fun hne => absurd hnone hne⟩, ?_⟩
      · intro f hf
        rw [List.mem_singleton.mp hf]
      · exact ⟨[], rfl, nofun, Nat.le_refl 0⟩
    · exact .refl s
  · exact .refl s

/-- Closing the connection concludes a run. -/
theorem closing_concluded (r : Ending) : Concluded p 0 r.2 (closing w p r).2 := by
  unfold closing
  split
  · exact .refl r.2
  · have hplainly := r.2.connection.close_plainly w.server
    unfold State.onConnection
    dsimp only
    revert hplainly
    rcases r.2.connection.close w.server with ⟨e | _, c⟩
    · exact fun h => .of_tally (Plainly.concluding h) rfl
    · exact fun h => .of_tally (Plainly.concluding h) rfl

/-- What a run does between its beginning and the end of its connection, once it has fed. -/
def conclude (w : Surroundings) (p : Plan) (r : Ending) : Ending :=
  closing w p (recover w p (r.andThen fun s =>
    if s.failures.isEmpty then finish w p s else .well (abort w p s)))

/-- **What concludes a run** is at most one statement outside of transactions, and none where a
    failure is listed. -/
theorem conclude_concluded (hsimulated : p.simulated = false) {r : Ending}
    (h : r.1 = .ok () ∨ r.2.failures = []) :
    Concluded p (if r.2.failures = [] then 1 else 0) r.2 (conclude w p r).2 := by
  obtain ⟨e | _, s⟩ := r
  · have hnone : s.failures = [] := h.resolve_left nofun
    have hrecovered := recover_concluded (w := w) (p := p) (r := (.error e, s)) (.inr hnone)
    exact (hrecovered.trans (closing_concluded _)).mono (Nat.zero_le _)
  · by_cases hnone : s.failures = []
    · obtain ⟨hfinished, hlisted⟩ := finish_concluded (w := w) hsimulated s
      have hempty : s.failures.isEmpty = true := List.isEmpty_iff.mpr hnone
      unfold conclude
      rw [Ending.andThen_of_ok rfl, if_pos hempty, if_pos hnone]
      have hrecovered := recover_concluded (w := w) (p := p) (r := finish w p s)
        (.inr (hlisted.trans hnone))
      exact hfinished.trans (hrecovered.trans (closing_concluded _))
    · have hempty : ¬s.failures.isEmpty = true := fun h => hnone (List.isEmpty_iff.mp h)
      unfold conclude
      rw [Ending.andThen_of_ok rfl, if_neg hempty, if_neg hnone]
      exact (abort_concluded s).trans (closing_concluded (recover w p (.well (abort w p s))))

/-- The query at the end, if it can be logged, ends well, or by a failure that is reported. -/
theorem runEndQuery_reported (hserver : RefusesStatementsOnly w.server)
    (hlog : canLogEndQuery p = true) {last : Value} (hquery : p.endQuery = some last) (s : State) :
    ∀ e, (runEndQuery w p last s).1 = .error e → e.isReported = true := by
  unfold runEndQuery
  rw [Ending.andThen_of_ok (logEndQuery_of_can hlog hquery _)]
  generalize (logEndQuery p last _).2 = logged
  split
  · exact nofun
  · unfold postAlone
    rcases hserver.execute logged.connection last [] with ⟨rows, hrows⟩ | ⟨message, _, _, _, he⟩
    · dsimp only
      rw [hrows]
      exact nofun
    · dsimp only
      rw [he]
      rintro e ⟨⟩
      rfl

/-- Where no other call is refused, what ends a run is the query at the end, if there is one. -/
theorem finish_of_refusing (hserver : RefusesStatementsOnly w.server) (s : State) : ∃ s',
    finish w p s = match p.endQuery with
      | some query => runEndQuery w p query s'
      | none => .well s' := by
  let committed := if usesTransaction p then s.onConnection fun c => c.commit w.server else .well s
  have hok : committed.1 = .ok () := by
    dsimp only [committed]
    split
    · exact hserver.commit s.connection
    · rfl
  exact ⟨printPending (summarize w p committed.2), Ending.andThen_of_ok hok⟩

/-- So committing and the query behind it end well or by a reported failure, if the query can be
    logged. -/
theorem finish_reported (hserver : RefusesStatementsOnly w.server) (hlog : canLogEndQuery p = true)
    (s : State) : ∀ e, (finish w p s).1 = .error e → e.isReported = true := by
  obtain ⟨s', hfinish⟩ := finish_of_refusing (p := p) hserver s
  rw [hfinish]
  cases hquery : p.endQuery with
  | some query => exact runEndQuery_reported hserver hlog hquery s'
  | none => exact nofun

/-- If it cannot, they end in a fault. -/
theorem finish_of_cannot (hserver : RefusesStatementsOnly w.server) (hlog : canLogEndQuery p = false)
    (s : State) : ∃ e, e.isReported = false ∧ (finish w p s).1 = .error e := by
  obtain ⟨s', hfinish⟩ := finish_of_refusing (p := p) hserver s
  obtain ⟨query, hquery, hfault⟩ := logEndQuery_of_cannot hlog
  refine ⟨.noOperation query.kind "strip", rfl, ?_⟩
  rw [hfinish, hquery]
  dsimp only
  unfold runEndQuery
  dsimp only
  rw [hfault]
  rfl

/-- Closing does not change how the run ends. -/
theorem closing_of_accepted (hserver : RefusesStatementsOnly w.server) (r : Ending) :
    ∃ c, closing w p r = (r.1, { r.2 with connection := c }) := by
  unfold closing
  split
  · exact ⟨r.2.connection, rfl⟩
  · have hclose := hserver.close r.2.connection
    unfold State.onConnection
    dsimp only
    revert hclose
    rcases r.2.connection.close w.server with ⟨e | _, c⟩
    · exact nofun
    · exact fun _ => ⟨c, rfl⟩

/-- **What has fed is concluded well** where the database refuses statements only, unless it comes to a
    query that it cannot log. It does not come to it if a line has failed. -/
theorem conclude_returns (hserver : RefusesStatementsOnly w.server) {r : Ending} (h : r.1 = .ok ())
    (hlog : canLogEndQuery p = true ∨ r.2.failures ≠ []) : (conclude w p r).1 = .ok () := by
  unfold conclude
  rw [Ending.andThen_of_ok h]
  generalize hended : (if r.2.failures.isEmpty then finish w p r.2 else .well (abort w p r.2)) = ended
  obtain ⟨c, hclosing⟩ := closing_of_accepted (p := p) hserver (recover w p ended)
  rw [hclosing]
  have hreported : ∀ e, ended.1 = .error e → e.isReported = true := by
    rw [← hended]
    split
    · rename_i hempty
      exact finish_reported hserver (hlog.resolve_right (not_not_intro (List.isEmpty_iff.mp hempty))) r.2
    · exact nofun
  obtain ⟨e | _, s⟩ := ended
  · unfold recover
    dsimp only
    rw [if_pos (hreported e rfl)]
    rfl
  · rfl

/-- If it comes to such a query, it ends in a fault, and nothing is listed. -/
theorem conclude_of_cannot (hserver : RefusesStatementsOnly w.server) {r : Ending} (h : r.1 = .ok ())
    (hlog : canLogEndQuery p = false) (hnone : r.2.failures = []) :
    ∃ e c, e.isReported = false ∧
      conclude w p r = (.error e, { (finish w p r.2).2 with connection := c }) := by
  obtain ⟨e, hfault, he⟩ := finish_of_cannot hserver hlog r.2
  obtain ⟨c, hclosing⟩ := closing_of_accepted (p := p) hserver (finish w p r.2)
  refine ⟨e, c, hfault, ?_⟩
  unfold conclude
  rw [Ending.andThen_of_ok h, if_pos (List.isEmpty_iff.mpr hnone), recover_of_fault he hfault, hclosing,
    he]

/-- If a line has failed, the failures of the lines are all there is to tell. -/
theorem conclude_isFailed (hserver : RefusesStatementsOnly w.server) {r : Ending} (h : r.1 = .ok ())
    (hsome : r.2.failures ≠ []) : (conclude w p r).2.isFailed = true := by
  have hempty : r.2.failures.isEmpty = false := List.isEmpty_eq_false_iff.mpr hsome
  have hfailed : (abort w p r.2).failures = r.2.failures := by
    unfold abort
    split <;> rfl
  obtain ⟨c, hclosing⟩ := closing_of_accepted (p := p) hserver (.well (abort w p r.2))
  unfold conclude
  rw [Ending.andThen_of_ok h, if_neg (by rw [hempty]; exact nofun)]
  change (closing w p (.well (abort w p r.2))).2.isFailed = true
  rw [hclosing]
  change (!(abort w p r.2).failures.isEmpty) = true
  rw [hfailed, hempty]
  rfl

/-- **Where the database refuses statements only, a run that has fed returns** exactly if it can log the
    query at the end, or does not come to it because something has failed. -/
theorem conclude_returns_iff (hserver : RefusesStatementsOnly w.server) (hsimulated : p.simulated = false)
    {r : Ending} (h : r.1 = .ok ()) : (conclude w p r).1 = .ok () ↔
      canLogEndQuery p = true ∨ (conclude w p r).2.isFailed = true := by
  by_cases hnone : r.2.failures = []
  · cases hlog : canLogEndQuery p with
    | true => exact iff_of_true (conclude_returns hserver h (.inl hlog)) (.inl rfl)
    | false =>
      obtain ⟨e, c, _, hconclude⟩ := conclude_of_cannot hserver h hlog hnone
      have hunlisted : (finish w p r.2).2.failures = [] :=
        (finish_concluded (w := w) hsimulated r.2).2.trans hnone
      rw [hconclude]
      refine iff_of_false nofun (not_or.mpr ⟨nofun, ?_⟩)
      change ¬ (!(finish w p r.2).2.failures.isEmpty) = true
      rw [hunlisted]
      exact nofun
  · exact iff_of_true (conclude_returns hserver h (.inr hnone))
      (.inr (conclude_isFailed hserver h hnone))

/-- **A run that comes to its lines is its feeding, concluded.** -/
theorem run_of_opens (hsimulated : p.simulated = false) (hopens : Opens w p) (template : Text)
    (lines : Option (List Text)) :
    ∃ s, Opened p s ∧ run w p template lines = conclude w p (feed w p template lines s) := by
  unfold run body conclude
  dsimp only
  rw [hsimulated, hopens.verbosity]
  dsimp only
  generalize hs' : ((State.start p.address).noteIf false .info _).noteIf (p.isAbove 0) .debug _ = s'
  have halike : Alike (.start p.address) s' := by
    rw [← hs']
    exact (Alike.noted ..).trans (Alike.noted ..)
  have hok : (openGraph w p s').1 = .ok () := (halike.openGraph.1).trans hopens.connection
  refine ⟨(openGraph w p s').2, openGraph_opened hsimulated ?_ ?_ hok, ?_⟩
  · rw [← hs', link_noteIf, link_noteIf]
    rfl
  · rw [← hs']
    exact tally_of_ledger (s := .start p.address) (by rw [ledger_noteIf, ledger_noteIf])
  · rw [Ending.andThen_of_ok hok]

/-! ## 3. The whole run -/

/-- The failures of lines that are listed. -/
def State.lined (s : State) : List Failure := s.failures.filter fun f => f.line.isSome

/-- What concludes a run sends no statement in a transaction. -/
theorem ConcludingCalls.answers_inside {n : Nat} {k k' : Link} (h : ConcludingCalls p n k k')
    (server : Server) : answers server Call.inside? k'.calls = answers server Call.inside? k.calls := by
  obtain ⟨more, hcalls, hconcludes, _⟩ := h
  rw [hcalls]
  refine answers_append (fun call hc => ?_) k.calls
  rcases hconcludes call hc with hplain | ⟨_, hend⟩ | ⟨session, last, _, rfl⟩
  · cases call <;> first | rfl | cases hplain
  · cases call <;> first | rfl | cases hend
  · rfl

/-- Outside of transactions it sends the query at the end. -/
theorem ConcludingCalls.answers_alone {n : Nat} {k k' : Link} (h : ConcludingCalls p n k k')
    (server : Server) : ∃ late,
      answers server Call.alone? k'.calls = answers server Call.alone? k.calls ++ late ∧
        late.length ≤ n ∧ ∀ a ∈ late, p.endQuery = some a.1.query ∧ a.1.parameters = [] := by
  obtain ⟨more, hcalls, hconcludes, hcount⟩ := h
  rw [hcalls]
  clear hcalls
  induction more generalizing n with
  | nil => exact ⟨[], (List.append_nil _).symm, Nat.zero_le n, nofun⟩
  | cons call more ih =>
    obtain ⟨hcall, hmore⟩ := List.forall_mem_cons.mp hconcludes
    by_cases halone : call.isAlone = true
    · rw [List.countP_cons_of_pos halone] at hcount
      obtain ⟨late, hlate, hlength, hlast⟩ := ih hmore (n := n - 1) (by omega)
      rcases hcall with hplain | ⟨_, hend⟩ | ⟨session, last, hquery, rfl⟩
      · rw [isAlone_of_isPlain hplain] at halone
        cases halone
      · rw [isAlone_of_isEnd hend] at halone
        cases halone
      · rw [List.cons_append, answers_of_some rfl, hlate, List.append_assoc]
        refine ⟨_, rfl, ?_, List.forall_mem_append.mpr ⟨hlast, fun a ha => ?_⟩⟩
        · rw [List.length_append, List.length_singleton]
          omega
        · rw [List.mem_singleton.mp ha]
          exact ⟨hquery, rfl⟩
    · rw [List.countP_cons_of_neg halone] at hcount
      have hnone : call.alone? = none := by cases call <;> first | rfl | exact absurd rfl halone
      rw [List.cons_append, answers_of_none hnone]
      exact ih hmore hcount

theorem Tells.line_of_mem {lines : List Line} {tale ordered : List Entry}
    (h : Tells w p template lines tale ordered) {d : Entry} (hd : d ∈ tale) : d.line.isSome = true := by
  have hmem : (d.line, d.fate.result) ∈ ordered.map fun d => (d.line, d.fate.result) :=
    List.mem_map_of_mem (h.perm.subset hd)
  rw [h.entries] at hmem
  obtain ⟨line, _, heq⟩ := List.mem_map.mp hmem
  rw [← (Prod.mk.inj heq).1]
  rfl

/-- **The tale of a run** accounts for what it has counted, listed and sent. Behind what it has fed it
    sends at most the query at the end, and that only if no line has failed. -/
structure Told (w : Surroundings) (p : Plan) (kind : Call → Option Request) (tale : List Entry)
    (s : State) : Prop where
  expressions : s.expressions = tale.countP fun d => d.fate.isWritten
  skipped : s.skipped = tale.countP fun d => d.fate.isSkipped
  lined : s.lined = tale.filterMap Entry.failure?
  unlined : s.lined ≠ [] → s.failures = s.lined
  fed : ∃ fed : Link, answers w.server kind fed.calls = tale.filterMap Entry.answer? ∧
    (∀ call ∈ fed.calls, call.isPlain = true ∨ (p.transactional = true ∧ call.isBegin = true) ∨
      (kind call).isSome = true) ∧
    ConcludingCalls p (if s.lined = [] then 1 else 0) fed s.link

/-- What has been fed after the opening, and then concluded, is told by the tale of the feeding. -/
theorem Told.of_fed {kind : Call → Option Request} {tale ordered : List Entry} {lines : List Line}
    (hopened : Opened p s) (htells : Tells w p template lines tale ordered)
    (haccount : Account w.server kind s s' tale)
    (hconcluded : Concluded p (if s'.failures = [] then 1 else 0) s' s'')
    (hkind : ∀ call : Call, call.isPlain = true ∨ call.isBegin = true → kind call = none) :
    Told w p kind tale s'' := by
  have hlisted : s'.failures = tale.filterMap Entry.failure? := by
    rw [haccount.failures, show s.failures = [] from congrArg (fun t => t.2.2) hopened.tally,
      List.nil_append]
  obtain ⟨late, hlate, hlines, hfirst⟩ := hconcluded.failures
  have hlined : s''.lined = s'.failures := by
    have hkept : ∀ f ∈ s'.failures, f.line.isSome = true := by
      rw [hlisted]
      intro f hf
      obtain ⟨d, hd, hfailure⟩ := List.mem_filterMap.mp hf
      obtain ⟨e, _, rfl⟩ := Option.map_eq_some_iff.mp hfailure
      exact htells.line_of_mem hd
    have hlost : ∀ f ∈ late, ¬f.line.isSome = true := fun f hf => by rw [hlines f hf]; exact nofun
    rw [State.lined, hlate, List.filter_append, List.filter_eq_self.mpr hkept,
      List.filter_eq_nil_iff.mpr hlost, List.append_nil]
  constructor
  case expressions =>
    rw [hconcluded.expressions, haccount.expressions, show s.expressions = 0 from
      congrArg (fun t => t.1) hopened.tally, Nat.zero_add]
  case skipped =>
    rw [hconcluded.skipped, haccount.skipped, show s.skipped = 0 from
      congrArg (fun t => t.2.1) hopened.tally, Nat.zero_add]
  case lined => exact hlined.trans hlisted
  case unlined =>
    rw [hlined]
    intro hne
    rw [hlate, hfirst hne, List.append_nil]
  case fed =>
    have hopening : answers w.server kind s.link.calls = [] := by
      have hcalls : ∀ call ∈ s.link.calls, kind call = none := fun call hc =>
        hkind call ((hopened.calls call hc).imp_right fun h => h.2)
      rw [← List.append_nil s.link.calls]
      exact answers_append hcalls []
    obtain ⟨more, hmore, hsome⟩ := haccount.calls
    refine ⟨s'.link, by rw [haccount.answers, hopening, List.nil_append], fun call hc => ?_, ?_⟩
    · rw [hmore] at hc
      rcases List.mem_append.mp hc with hc | hc
      · exact .inr (.inr (hsome call hc))
      · exact (hopened.calls call hc).imp_right .inl
    · rw [hlined]
      exact hconcluded.calls

/-- **A run that comes to its lines has a tale.** Where lines are read and the database refuses
    statements only, it returns, unless it comes to a query at the end that it cannot log. -/
theorem run_told {kind : Call → Option Request} (hsimulated : p.simulated = false)
    (hopens : Opens w p) (htemplate : template ≠ []) (lines : List Text)
    (hready : ∀ {s}, Opened p s → Ready kind s.link)
    (hkind : ∀ call : Call, call.isPlain = true ∨ call.isBegin = true → kind call = none) :
    ∃ tale ordered, Tells w p template (readLines p lines) tale ordered ∧
      Orderly p.transactional false tale ∧
      Told w p kind tale (run w p template (some lines)).2 ∧
      (makesBatches p = true → RefusesStatementsOnly w.server →
        ((run w p template (some lines)).1 = .ok () ↔
          canLogEndQuery p = true ∨ (run w p template (some lines)).2.isFailed = true)) := by
  obtain ⟨s, hopened, hrun⟩ := run_of_opens hsimulated hopens template (some lines)
  obtain ⟨tale, ordered, htells, horderly, hend, haccount⟩ :=
    feed_account (w := w) hsimulated (hready hopened) htemplate lines
  have hnone : s.failures = [] := congrArg (fun t => t.2.2) hopened.tally
  rw [hnone] at horderly hend
  have hconcluded := conclude_concluded (w := w) hsimulated (hend.imp_right fun h => h.2)
  rw [hrun]
  refine ⟨tale, ordered, htells, horderly, .of_fed hopened htells haccount hconcluded hkind, ?_⟩
  intro hbatches hserver
  exact conclude_returns_iff hserver hsimulated
    (hend.resolve_right fun h => by rw [hbatches] at h; cases h.1)

end GraphFeed.Run
