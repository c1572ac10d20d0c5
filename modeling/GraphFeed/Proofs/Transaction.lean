import GraphFeed.Instruction.Parsing
import GraphFeed.Proofs.Feeding

/-!
# All or nothing

A run that writes in a transaction writes all of its lines or nothing. `AllOrNothing` says so of the
history of its calls:

* statements are sent in the one transaction only, before it is ended, and nothing but the query at
  the end is sent outside of it, after the transaction was committed;
* it is committed only if no line has failed, and then the statements sent are those of the lines,
  in their order;
* if a line that was read has failed, the transaction is rolled back.

Whatever the database refuses and whatever the commands of lines answer, a run is all or nothing
(`run_allOrNothing`). That speaks of all lines (`due`), unless batches are to hold no line: then an
empty transaction is committed (`unread_committed`). Where there are lines and no batch can be made to
read them in (`LeavesLines`), the run is `Unwritten`.

`Settled` is what the history of a run comes to, and `Recoverable` adds that nothing is open any
more, or can be rolled back. The parts of a run keep them: `openGraph_cases`, `finish_recoverable`,
`body_recoverable`, `recover_settled`, `closing_settled`. `Opening` lists how opening can end.
-/

namespace GraphFeed.Run

open GraphFeed.Graph

variable {server : Server} {query : Option Value} {w : Surroundings} {p : Plan} {t : Handle}
  {s : State} {calls : List Call} {res all : List (Except Error (Option Statement))}

/-! ## 1. The property -/

/-- A line has failed: it comes to a failure, or its statement was refused. -/
def Failed (server : Server) (results : List (Except Error (Option Statement)))
    (calls : List Call) : Prop :=
  (∃ result ∈ results, result.toBool = false) ∨ refused server calls = true

/-- What a run is to write: the template itself, or what its lines come to, be they read or not. -/
def due (w : Surroundings) (p : Plan) (template : Text) :
    Option (List Text) → List (Except Error (Option Statement))
  | none => [compile w p template]
  | some lines => (dueLines p lines).map (lineResult w p template)

/-- There are lines to be written, and no batch can be made to read them in. -/
def LeavesLines (p : Plan) : Option (List Text) → Prop
  | none => False
  | some lines => makesBatches p = false ∧ dueLines p lines ≠ []

/-- **All or nothing.** What the calls of a run are, given what all of its lines come to, and what those
    come to that it reads. -/
structure AllOrNothing (server : Server) (query : Option Value)
    (all read : List (Except Error (Option Statement))) (calls : List Call) : Prop where
  begunOnce : calls.countP Call.isBegin ≤ 1
  /-- A statement is sent in the transaction that was begun, and nothing was ended before. -/
  inside : ∀ later t statement parameters earlier,
    calls = later ++ .run t statement parameters :: earlier →
      opened server earlier = some t ∧ earlier.countP Call.isEnd = 0
  /-- A statement outside of it is the query at the end, sent after the commit was accepted. -/
  outside : ∀ later session statement parameters earlier,
    calls = later ++ .runAlone session statement parameters :: earlier →
      query = some statement ∧ parameters = [] ∧ committed server earlier = true
  outsideOnce : calls.countP Call.isAlone ≤ 1
  /-- Of commits and rollbacks, one at most is sent. -/
  endedOnce : calls.countP Call.isEnd ≤ 1
  /-- The transaction is committed only if no line has failed. -/
  faultless : ∀ t, .commit t ∈ calls → ¬ Failed server all calls
  /-- A transaction that is committed holds the statements of all lines, in their order. -/
  complete : ∀ t, .commit t ∈ calls → sent calls = statements all
  /-- If a line that was read has failed, the transaction that is open is rolled back instead. -/
  takenBack : Failed server read calls →
    ∀ t, opened server calls = some t → .rollback t ∈ calls

/-- Nothing is sent in the transaction, and it is not committed. If it was begun, the run ends in a
    failure. -/
structure Unwritten (server : Server) (r : Ending) : Prop where
  sent : sent r.2.link.calls = []
  uncommitted : ∀ t, .commit t ∉ r.2.link.calls
  ends : ∀ t, opened server r.2.link.calls = some t → ∃ e, r.1 = .error e

/-! ## 2. Settled histories -/

/-- The history keeps to the protocol; it is clean if the transaction was to be committed, and
    otherwise the transaction was rolled back. -/
structure Settled (server : Server) (query : Option Value)
    (all read : List (Except Error (Option Statement))) (calls : List Call) : Prop where
  protocol : ∃ stage, Protocol server query stage calls
  committed : ∀ t, .commit t ∈ calls → Clean server all calls
  takenBack : ∀ t, opened server calls = some t →
    Clean server read calls ∨ .rollback t ∈ calls

theorem Clean.not_failed (h : Clean server res calls) : ¬ Failed server res calls := by
  rintro (⟨result, hresult, hfailed⟩ | hrefused)
  · rw [h.noFailure result hresult] at hfailed
    cases hfailed
  · rw [h.noRefusal] at hrefused
    cases hrefused

/-- **A settled history is all or nothing.** -/
theorem Settled.allOrNothing (h : Settled server query all res calls) :
    AllOrNothing server query all res calls := by
  obtain ⟨⟨stage, hprotocol⟩, hcommitted, htakenBack⟩ := h
  constructor
  case begunOnce => exact hprotocol.begins_le_one
  case inside =>
    rintro later t statement parameters earlier rfl
    exact hprotocol.run_inside
  case outside =>
    rintro later session statement parameters earlier rfl
    exact hprotocol.runAlone_after
  case outsideOnce => exact hprotocol.alone_le_one
  case endedOnce => exact hprotocol.ends_le_one
  case faultless => exact fun t hmem => (hcommitted t hmem).not_failed
  case complete => exact fun t hmem => (hcommitted t hmem).complete
  case takenBack =>
    intro hfailed t hopened
    exact (htakenBack t hopened).resolve_left fun hclean => hclean.not_failed hfailed

theorem Settled.of_clean {stage : Stage} (hprotocol : Protocol server query stage calls)
    (hclean : Clean server res calls) : Settled server query res res calls :=
  ⟨⟨stage, hprotocol⟩, fun _ _ => hclean, fun _ _ => .inl hclean⟩

/-- A clean history that ends nothing is settled, whatever else there was to write. -/
theorem Settled.of_unended {stage : Stage} (hprotocol : Protocol server query stage calls)
    (hends : stage.ends = 0) (hclean : Clean server res calls) : Settled server query all res calls :=
  ⟨⟨stage, hprotocol⟩, fun t hmem => absurd hmem (hprotocol.commit_notMem hends t),
    fun _ _ => .inl hclean⟩

/-- Where no transaction could be begun, there is nothing to commit or to take back. -/
theorem Settled.of_unopened {stage : Stage} (hprotocol : Protocol server query stage calls)
    (hstage : stage.transaction? = none) : Settled server query all res calls := by
  have hends : stage.ends = 0 := by cases stage <;> first | rfl | cases hstage
  refine ⟨⟨stage, hprotocol⟩, fun t hmem => absurd hmem (hprotocol.commit_notMem hends t), ?_⟩
  intro t hopened
  rw [hprotocol.describes.opened, hstage] at hopened
  cases hopened

/-- An open transaction that is rolled back is settled, whatever has been done. -/
theorem Settled.of_rollback (hprotocol : Protocol server query (.open t) calls) :
    Settled server query all res (.rollback t :: calls) := by
  have hended : Protocol server query (.ended t) (.rollback t :: calls) :=
    .call hprotocol (.rollback t)
  refine ⟨⟨_, hended⟩, fun t' hmem => ?_, fun t' hopened => .inr ?_⟩
  · rcases List.mem_cons.mp hmem with heq | hmem
    · cases heq
    · exact absurd hmem (hprotocol.commit_notMem rfl t')
  · rw [hended.describes.opened] at hopened
    cases hopened
    exact List.mem_cons_self ..

/-- Plain calls change nothing about it. -/
theorem Settled.plain {call : Call} (h : Settled server query all res calls)
    (hplain : call.isPlain = true) : Settled server query all res (call :: calls) := by
  obtain ⟨⟨stage, hprotocol⟩, hcommitted, htakenBack⟩ := h
  have hrun := Call.isRun_of_isPlain hplain
  refine ⟨⟨stage, .call hprotocol (.plain hplain)⟩, fun t hmem => ?_, fun t hopened => ?_⟩
  · rcases List.mem_cons.mp hmem with heq | hmem
    · rw [← heq] at hplain
      cases hplain
    · exact (hcommitted t hmem).cons hrun
  · rw [opened_of_notBegin (Call.isBegin_of_isPlain hplain)] at hopened
    exact (htakenBack t hopened).imp (·.cons hrun) (List.mem_cons_of_mem _)

/-! ## 3. Beginning and end -/

/-- The history is settled, and there is no transaction any more, or it is open. -/
structure Recoverable (w : Surroundings) (p : Plan)
    (all read : List (Except Error (Option Statement))) (k : Link) : Prop where
  settled : Settled w.server p.endQuery all read k.calls
  rest : k.transaction = none ∨ ∃ t, InTransaction w p t k

/-- How opening can end, and what it leaves, where the connection has come to `k`. -/
inductive Opening (w : Surroundings) (p : Plan) (k : Link) : Except Error Unit → Link → Prop
  /-- There is no connection. -/
  | refused (e : Error) : Opening w p k (.error e) k
  /-- There is one, and no transaction is wanted. -/
  | plain (hsession : k.session.isSome = true) (htransactional : p.transactional = false) :
      Opening w p k (.ok ()) k
  | begun {session : Handle} (hsession : k.session = some session)
      (htransactional : p.transactional = true)
      (haccept : accepts w.server k.calls (.begin session) = true) :
      Opening w p k (.ok ()) ⟨k.session, some k.calls.length, .begin session :: k.calls⟩
  | notBegun {session : Handle} (hsession : k.session = some session)
      (htransactional : p.transactional = true)
      (hrefuse : accepts w.server k.calls (.begin session) = false) (e : Error) :
      Opening w p k (.error e) ⟨k.session, k.transaction, .begin session :: k.calls⟩

/-- **Opening connects, and begins a transaction if one is wanted.** -/
theorem openGraph_opening (hsimulated : p.simulated = false) (s : State) :
    (openGraph w p s).2.ledger = s.ledger ∧ ∃ k, Plainly s.link k ∧
      Opening w p k (openGraph w p s).1 (openGraph w p s).2.link := by
  unfold openGraph
  simp only [hsimulated, Bool.false_eq_true, if_false]
  generalize hs' : s.noteIf (p.isAbove 0) .debug _ = s'
  have hlink : s'.link = s.link := by rw [← hs', link_noteIf]
  have hledger : s'.ledger = s.ledger := by rw [← hs', ledger_noteIf]
  let connected := s'.onConnection fun c => c.connect w.server
  have hplainly : Plainly s.link connected.2.link := hlink ▸ s'.connection.connect_plainly w.server
  change (connected.andThen _).2.ledger = _ ∧ ∃ k, Plainly _ k ∧
    Opening w p k (connected.andThen _).1 (connected.andThen _).2.link
  cases hconnect : connected.1 with
  | error e =>
    rw [Ending.andThen_of_error hconnect, hconnect]
    exact ⟨hledger, connected.2.link, hplainly, .refused e⟩
  | ok _ =>
    have hsession : connected.2.link.session.isSome = true :=
      s'.connection.connect_session w.server hconnect
    rw [Ending.andThen_of_ok hconnect]
    cases htransactional : p.transactional with
    | false => exact ⟨hledger, connected.2.link, hplainly, .plain hsession htransactional⟩
    | true =>
      obtain ⟨session, hsome⟩ := Option.isSome_iff_exists.mp hsession
      let begun := connected.2.onConnection fun c => c.begin w.server
      refine ⟨hledger, connected.2.link, hplainly, ?_⟩
      change Opening w p connected.2.link begun.1 begun.2.link
      rcases connected.2.connection.begin_link w.server hsome with
        ⟨haccept, hok, hlast⟩ | ⟨hrefuse, ⟨e, he⟩, hlast⟩
      · rw [show begun.1 = .ok () from hok, show begun.2.link = _ from hlast]
        exact .begun hsome htransactional haccept
      · rw [show begun.1 = .error e from he, show begun.2.link = _ from hlast]
        exact .notBegun hsome htransactional hrefuse e

/-- Without a transaction there is nothing to take back. -/
theorem abort_of_none (hnone : s.link.transaction = none) : (abort w p s).link = s.link := by
  unfold abort
  split
  · rw [← link_note s .error "Rolling back: no changes were committed"]
    exact congrArg Connection.link (Connection.rollback_of_none w.server _ hnone)
  · rfl

/-- A query outside of the transaction is sent at most once. -/
theorem postAlone_maybeAlone (last : Value) :
    MaybeAlone last [] s.link (postAlone w p last s).2.link := by
  have hexecute := s.connection.execute_maybeAlone w.server last []
  unfold postAlone
  revert hexecute
  rcases s.connection.execute w.server last [] with ⟨e | rows, c⟩
  · exact id
  · dsimp only [Ending.well]
    split <;> exact id

/-- After a commit that was accepted, the query at the end leaves everything settled. -/
theorem Recoverable.of_maybeAlone {k k' : Link} {last : Value} (h : MaybeAlone last [] k k')
    (hquery : p.endQuery = some last)
    (hprotocol : Protocol w.server p.endQuery (.committed t) k.calls)
    (hclean : Clean w.server res k.calls) (hnone : k.transaction = none) :
    Recoverable w p res res k' := by
  rcases h with hplainly | ⟨between, session, hbefore, hafter⟩
  · exact ⟨hplainly.keeps (fun hplain h => h.plain hplain) (.of_clean hprotocol hclean),
      .inl (hplainly.transaction.trans hnone)⟩
  · have hprotocol' : Protocol w.server p.endQuery (.committed t) between.calls :=
      hbefore.keeps (fun hplain h => .call h (.plain hplain)) hprotocol
    have hclean' : Clean w.server res between.calls :=
      hbefore.keeps (fun hplain h => h.cons (Call.isRun_of_isPlain hplain)) hclean
    have hqueried : Settled w.server p.endQuery res res (.runAlone session last [] :: between.calls) :=
      .of_clean (.call hprotocol' (.queryAlone t session last hquery)) (hclean'.cons rfl)
    exact ⟨hafter.keeps (fun hplain h => h.plain hplain) hqueried,
      .inl (hafter.transaction.trans (hbefore.transaction.trans hnone))⟩

section Transactional

variable (htransactional : p.transactional = true) (hsimulated : p.simulated = false)

include htransactional hsimulated

/-- **An open transaction is rolled back**, whatever has been done in it. -/
theorem abort_of_open (h : InTransaction w p t s.link) :
    Recoverable w p all res (abort w p s).link := by
  let noted := s.note .error "Rolling back: no changes were committed"
  have habort : (abort w p s).link = (noted.connection.rollback w.server).link := by
    unfold abort
    rw [if_pos (by rw [usesTransaction, htransactional, hsimulated]; rfl)]
    rfl
  rw [habort, noted.connection.rollback_link w.server h.transaction]
  exact ⟨.of_rollback h.protocol, .inl rfl⟩

/-- **Opening begins the transaction**, or it fails and there is none. -/
theorem openGraph_cases (hlink : s.link = ⟨none, none, []⟩) (hfailures : s.failures = []) :
    ((openGraph w p s).1 = .ok () ∧ (openGraph w p s).2.failures = [] ∧
        ∃ t, Feeding w p t [] (openGraph w p s).2) ∨
      ((∃ e, (openGraph w p s).1 = .error e) ∧ (openGraph w p s).2.link.transaction = none ∧
        ∃ stage, stage.transaction? = none ∧
          Protocol w.server p.endQuery stage (openGraph w p s).2.link.calls) := by
  obtain ⟨hledger, k, hplainly, hopening⟩ := openGraph_opening (w := w) hsimulated s
  have hfailures' : (openGraph w p s).2.failures = [] :=
    (congrArg Ledger.failures hledger).trans hfailures
  rw [hlink] at hplainly
  have hprotocol : Protocol w.server p.endQuery .unopened k.calls :=
    hplainly.keeps (fun hplain h => .call h (.plain hplain)) .start
  have hclean : Clean w.server [] k.calls :=
    hplainly.keeps (fun hplain h => h.cons (Call.isRun_of_isPlain hplain)) (.nil rfl rfl)
  generalize hend : (openGraph w p s).1 = result at hopening ⊢
  generalize hlast : (openGraph w p s).2.link = k' at hopening ⊢
  cases hopening with
  | refused e => exact .inr ⟨⟨e, rfl⟩, hplainly.transaction, _, rfl, hprotocol⟩
  | plain hsession hnone =>
    rw [htransactional] at hnone
    cases hnone
  | begun hsession _ haccept =>
    refine .inl ⟨rfl, hfailures', k.calls.length, ?_, fun _ => ?_⟩
    · rw [hlast]
      exact ⟨by rw [hsession]; rfl, rfl, .call hprotocol (.begin _ haccept)⟩
    · rw [hlast]
      exact hclean.cons rfl
  | notBegun hsession _ hrefuse e =>
    exact .inr ⟨⟨e, rfl⟩, hplainly.transaction, _, rfl,
      .call hprotocol (.beginRefused _ hrefuse)⟩

omit htransactional in
/-- So is the query at the end. -/
theorem runEndQuery_maybeAlone (last : Value) :
    MaybeAlone last [] s.link (runEndQuery w p last s).2.link := by
  unfold runEndQuery
  simp only [hsimulated]
  generalize hs' : s.noteIf (p.isAbove 0) .debug _ = s'
  have hlink : (logEndQuery p last s').2.link = s.link := by
    rw [link_logEndQuery, ← hs', link_noteIf]
  cases hlog : (logEndQuery p last s').1 with
  | error e =>
    rw [Ending.andThen_of_error hlog, hlink]
    exact .inl (.refl _)
  | ok _ =>
    rw [Ending.andThen_of_ok hlog]
    exact hlink ▸ postAlone_maybeAlone last

/-- **A clean transaction is committed**, and the query at the end is run if that was accepted. -/
theorem finish_recoverable (h : Feeding w p t res s) (hfailures : s.failures = []) :
    Recoverable w p res res (finish w p s).2.link := by
  obtain ⟨hcommit, hanswer⟩ := s.connection.commit_link w.server h.inside.transaction
  let committed := s.onConnection fun c => c.commit w.server
  have hlink : committed.2.link = ⟨s.link.session, none, .commit t :: s.link.calls⟩ := hcommit
  have hclean : Clean w.server res committed.2.link.calls := by
    rw [hlink]
    exact (h.clean hfailures).cons rfl
  have hnone : committed.2.link.transaction = none := by rw [hlink]
  have huses : usesTransaction p = true := by rw [usesTransaction, htransactional, hsimulated]; rfl
  unfold finish
  simp only [huses, if_true]
  rcases hanswer with ⟨haccept, hok⟩ | ⟨hrefuse, e, he⟩
  · have hprotocol : Protocol w.server p.endQuery (.committed t) committed.2.link.calls := by
      rw [hlink]
      exact .call h.inside.protocol (.commit t haccept)
    have hsummed : (printPending (summarize w p committed.2)).link = committed.2.link := by
      rw [link_printPending, link_summarize]
    rw [Ending.andThen_of_ok (r := committed) hok]
    cases hquery : p.endQuery with
    | none =>
      dsimp only [Ending.well]
      rw [hsummed]
      exact ⟨.of_clean hprotocol hclean, .inl hnone⟩
    | some last =>
      have halone := runEndQuery_maybeAlone (w := w) (s := printPending (summarize w p committed.2))
        hsimulated last
      rw [hsummed] at halone
      exact .of_maybeAlone halone hquery hprotocol hclean hnone
  · have hprotocol : Protocol w.server p.endQuery (.ended t) committed.2.link.calls := by
      rw [hlink]
      exact .call h.inside.protocol (.commitRefused t hrefuse)
    rw [Ending.andThen_of_error (r := committed) he]
    exact ⟨.of_clean hprotocol hclean, .inl hnone⟩

omit htransactional hsimulated in
/-- Where lines are left, feeding sends nothing and ends in a fault. -/
theorem feed_leavesLines {template : Text} (htemplate : template ≠ []) {lines : Option (List Text)}
    (hlines : LeavesLines p lines) (s : State) :
    (feed w p template lines s).2.link = s.link ∧
      ∃ e, e.isReported = false ∧ (feed w p template lines s).1 = .error e := by
  have hempty : template.isEmpty = false := List.isEmpty_eq_false_iff.mpr htemplate
  cases lines with
  | none => exact hlines.elim
  | some lines =>
    unfold feed
    simp only [hempty]
    generalize hs' : s.noteIf (p.isAbove 0) .debug _ = s'
    obtain ⟨hlink, _, hfault⟩ := processLines_of_noBatches (w := w) hlines.1 template lines s'
    exact ⟨hlink.trans (by rw [← hs', link_noteIf]), hfault hlines.2⟩

omit htransactional hsimulated in
/-- Where no lines are left, those to be written are those that are read. -/
theorem due_eq_results {lines : Option (List Text)} (hlines : ¬ LeavesLines p lines)
    (template : Text) : due w p template lines = results w p template lines := by
  cases lines with
  | none => rfl
  | some lines =>
    have hread : dueLines p lines = readLines p lines := by
      unfold readLines
      split
      · rename_i hbatches
        unfold dueLines
        split
        · rename_i hlimit
          rw [makesBatches, hlimit] at hbatches
          cases hbatches
        · rfl
      · rename_i hbatches
        exact Decidable.not_not.mp fun hdue => hlines ⟨Bool.eq_false_iff.mpr hbatches, hdue⟩
    rw [due, results, hread]

/-- **What a run does between its ends is settled**, or it can be rolled back. -/
theorem body_recoverable {template : Text} (htemplate : template ≠ []) (lines : Option (List Text))
    (hlink : s.link = ⟨none, none, []⟩) (hfailures : s.failures = []) :
    Recoverable w p (due w p template lines) (results w p template lines)
      (body w p template lines s).2.link := by
  unfold body
  rcases openGraph_cases htransactional hsimulated hlink hfailures with
    ⟨hopen, hnone, t, hbegun⟩ | ⟨⟨e, hopen⟩, hnone, stage, hstage, hprotocol⟩
  · rw [Ending.andThen_of_ok hopen]
    obtain ⟨hfed, hend⟩ := feed_feeding htransactional hsimulated htemplate lines hbegun hnone
    cases hfeed : (feed w p template lines (openGraph w p s).2).1 with
    | ok _ =>
      have hall : due w p template lines = results w p template lines :=
        due_eq_results (fun hlines => by
          obtain ⟨_, e, _, he⟩ := feed_leavesLines (w := w) htemplate hlines (openGraph w p s).2
          rw [hfeed] at he
          cases he) template
      rw [Ending.andThen_of_ok hfeed, hall]
      split
      · rename_i hempty
        exact finish_recoverable htransactional hsimulated hfed (List.isEmpty_iff.mp hempty)
      · exact abort_of_open htransactional hsimulated hfed.inside
    | error e =>
      rw [Ending.andThen_of_error hfeed]
      have hempty : (feed w p template lines (openGraph w p s).2).2.failures = [] :=
        hend.resolve_left fun hok => by rw [hok] at hfeed; cases hfeed
      exact ⟨.of_unended hfed.inside.protocol rfl (hfed.clean hempty), .inr ⟨t, hfed.inside⟩⟩
  · rw [Ending.andThen_of_error hopen]
    exact ⟨.of_unopened hprotocol hstage, .inl hnone⟩

/-- What a run does between its ends writes nothing where lines are left. It ends in a fault, or there
    is no transaction. -/
theorem body_unwritten {template : Text} (htemplate : template ≠ []) {lines : Option (List Text)}
    (hlines : LeavesLines p lines) (hlink : s.link = ⟨none, none, []⟩) (hfailures : s.failures = []) :
    Unwritten w.server (body w p template lines s) ∧
      ((∃ e, e.isReported = false ∧ (body w p template lines s).1 = .error e) ∨
        (body w p template lines s).2.link.transaction = none ∧
          opened w.server (body w p template lines s).2.link.calls = none) := by
  unfold body
  rcases openGraph_cases htransactional hsimulated hlink hfailures with
    ⟨hopen, hnone, t, hbegun⟩ | ⟨⟨e, hopen⟩, hnone, stage, hstage, hprotocol⟩
  · obtain ⟨hfed, e, hfault, hfeed⟩ := feed_leavesLines (w := w) htemplate hlines (openGraph w p s).2
    rw [Ending.andThen_of_ok hopen, Ending.andThen_of_error hfeed]
    refine ⟨⟨?_, ?_, fun _ _ => ⟨e, hfeed⟩⟩, .inl ⟨e, hfault, hfeed⟩⟩
    · rw [hfed]
      exact (hbegun.clean hnone).complete
    · rw [hfed]
      exact hbegun.inside.protocol.commit_notMem rfl
  · have hopened : opened w.server (openGraph w p s).2.link.calls = none :=
      hprotocol.describes.opened.trans hstage
    have hends : stage.ends = 0 := by cases stage <;> first | rfl | cases hstage
    rw [Ending.andThen_of_error hopen]
    exact ⟨⟨hprotocol.sent_eq_nil hstage, hprotocol.commit_notMem hends,
      fun _ _ => ⟨e, hopen⟩⟩, .inr ⟨hnone, hopened⟩⟩

omit htransactional hsimulated in
/-- A fault is not recovered from. -/
theorem recover_of_fault {r : Ending} {e : Error} (h : r.1 = .error e) (he : e.isReported = false) :
    recover w p r = r := by
  obtain ⟨_ | _, s⟩ := r
  · cases h
    unfold recover
    dsimp only
    rw [if_neg (ne_true_of_eq_false he)]
  · cases h

/-- After a failure that is reported, the transaction is rolled back if it is still open. -/
theorem recover_settled {r : Ending} (h : Recoverable w p all res r.2.link) :
    Settled w.server p.endQuery all res (recover w p r).2.link.calls := by
  obtain ⟨e | _, s⟩ := r
  · by_cases hreported : e.isReported = true
    · obtain ⟨s', hlink, hrecover⟩ : ∃ s' : State, s'.link = s.link ∧
          recover w p (.error e, s) = (.ok (), abort w p s') := by
        unfold recover
        dsimp only
        rw [if_pos hreported]
        refine ⟨_, ?_, rfl⟩
        rfl
      rw [hrecover]
      rcases h.rest with hnone | ⟨t, hinside⟩
      · rw [abort_of_none (hlink ▸ hnone), hlink]
        exact h.settled
      · exact (abort_of_open htransactional hsimulated (hlink ▸ hinside)).settled
    · rw [recover_of_fault rfl (Bool.eq_false_iff.mpr hreported)]
      exact h.settled
  · exact h.settled

omit htransactional hsimulated in
/-- A run that writes nothing and has ended in a fault, or has no transaction, ends as it has. -/
theorem recover_unwritten {r : Ending} (h : Unwritten w.server r)
    (hend : (∃ e, e.isReported = false ∧ r.1 = .error e) ∨
      r.2.link.transaction = none ∧ opened w.server r.2.link.calls = none) :
    Unwritten w.server (recover w p r) := by
  obtain ⟨e | _, s⟩ := r
  · by_cases hreported : e.isReported = true
    · have hnone : s.link.transaction = none ∧ opened w.server s.link.calls = none := by
        rcases hend with ⟨e', hfault, he⟩ | hnone
        · cases he
          rw [hreported] at hfault
          cases hfault
        · exact hnone
      have hlink : (recover w p (.error e, s)).2.link = s.link := by
        unfold recover
        dsimp only
        rw [if_pos hreported]
        exact abort_of_none hnone.1
      refine ⟨hlink ▸ h.sent, hlink ▸ h.uncommitted, fun t hopened => ?_⟩
      rw [hlink, hnone.2] at hopened
      cases hopened
    · rw [recover_of_fault rfl (Bool.eq_false_iff.mpr hreported)]
      exact h
  · exact h

end Transactional

/-- Closing changes nothing about it. -/
theorem closing_settled {r : Ending} (h : Settled w.server p.endQuery all res r.2.link.calls) :
    Settled w.server p.endQuery all res (closing w p r).2.link.calls := by
  unfold closing
  split
  · exact h
  · have hplainly := r.2.connection.close_plainly w.server
    have hclosed : Settled w.server p.endQuery all res (r.2.connection.close w.server).2.link.calls :=
      hplainly.keeps (fun hplain h => h.plain hplain) h
    unfold State.onConnection
    dsimp only
    revert hclosed
    rcases r.2.connection.close w.server with ⟨e | _, c⟩
    · exact id
    · exact id

/-- So it is with a run that writes nothing. -/
theorem closing_unwritten {r : Ending} (h : Unwritten w.server r) :
    Unwritten w.server (closing w p r) := by
  unfold closing
  split
  · exact h
  · have hplainly := r.2.connection.close_plainly w.server
    have hclosed : Unwritten w.server (r.1, { r.2 with connection := (r.2.connection.close w.server).2 }) := by
      refine ⟨?_, fun t => ?_, fun t hopened => h.ends t ?_⟩
      · exact hplainly.keeps (motive := fun calls => Graph.sent calls = [])
          (fun hplain hsent => (sent_of_notRun (Call.isRun_of_isPlain hplain)).trans hsent) h.sent
      · refine hplainly.keeps (motive := fun calls => .commit t ∉ calls) (fun hplain hno hmem => ?_)
          (h.uncommitted t)
        rcases List.mem_cons.mp hmem with heq | hmem
        · rw [← heq] at hplain
          cases hplain
        · exact hno hmem
      · refine hplainly.keeps (motive := fun calls => opened w.server calls = some t →
          opened w.server r.2.link.calls = some t) (fun hplain hbefore hopened => hbefore ?_) id hopened
        rwa [opened_of_notBegin (Call.isBegin_of_isPlain hplain)] at hopened
    unfold State.onConnection
    dsimp only
    revert hclosed
    rcases r.2.connection.close w.server with ⟨e | _, c⟩
    · exact fun hclosed => ⟨hclosed.sent, hclosed.uncommitted, fun _ _ => ⟨e, rfl⟩⟩
    · exact id

/-- **A run writes all of its lines or nothing**, whatever the database refuses and whatever the
    commands of the lines answer. Where lines are left, it writes nothing. -/
theorem run_allOrNothing (w : Surroundings) (p : Plan) (template : Text)
    (lines : Option (List Text)) (htemplate : template ≠ [])
    (htransactional : p.transactional = true) (hsimulated : p.simulated = false) :
    AllOrNothing w.server p.endQuery (due w p template lines) (results w p template lines)
        (run w p template lines).2.connection.calls ∧
      (LeavesLines p lines → Unwritten w.server (run w p template lines)) := by
  unfold run
  dsimp only
  generalize hs : (State.start p.address).noteIf p.simulated .info _ = s
  have hlink : s.link = ⟨none, none, []⟩ := by rw [← hs, link_noteIf]; rfl
  have hfailures : s.failures = [] := by rw [← hs, failures_noteIf]; rfl
  have hcalls : s.connection.calls = [] := congrArg Link.calls hlink
  cases p.checkVerbosity with
  | error e =>
    dsimp only
    rw [hcalls]
    refine ⟨Settled.allOrNothing (.of_unopened .start rfl), fun _ => ⟨?_, fun t => ?_, fun _ _ => ⟨e, rfl⟩⟩⟩
    · exact congrArg sent hcalls
    · rw [hlink]
      exact List.not_mem_nil
  | ok _ =>
    dsimp only
    generalize hs' : s.noteIf (p.isAbove 0) .debug _ = s'
    have hlink' : s'.link = ⟨none, none, []⟩ := by rw [← hs', link_noteIf, hlink]
    have hfailures' : s'.failures = [] := by rw [← hs', failures_noteIf, hfailures]
    have hbody : Recoverable w p (due w p template lines) (results w p template lines)
        (body w p template lines s').2.link :=
      body_recoverable htransactional hsimulated htemplate lines hlink' hfailures'
    refine ⟨Settled.allOrNothing
      (closing_settled (recover_settled htransactional hsimulated hbody)), fun hlines => ?_⟩
    obtain ⟨hunwritten, hend⟩ :=
      body_unwritten htransactional hsimulated htemplate hlines hlink' hfailures'
    exact closing_unwritten (recover_unwritten hunwritten hend)

/-- A plan that writes in a transaction, with batches of a size. -/
def inBatchesOf (size : Value) : Plan where
  output := .none
  transactional := true
  simulated := false
  keepBlank := false
  splitter := .ok .standard
  batches := .of (some 4) .sequential size (.int 1)
  verbosity := .int 0
  endQuery := none
  showResults := false
  address := ⟨.text "bolt://localhost:7687", .text "neo4j", .text "password", .text "neo4j"⟩

/-- A database that refuses nothing, and commands that answer nothing. -/
def obliging : Surroundings where
  server := fun _ _ => .ok []
  parser := .ofLexemes
  runner := fun _ => .ofFunction fun _ => .ok ⟨[], []⟩
  orders := fun _ => []
  elapsed := "0.00"

/-- A line in a batch of its own is written. -/
theorem run_allOrNothing_obliging :
    AllOrNothing obliging.server none
        (due obliging (inBatchesOf (.int 1)) ['a'] (some [['b']]))
        (results obliging (inBatchesOf (.int 1)) ['a'] (some [['b']]))
        (run obliging (inBatchesOf (.int 1)) ['a'] (some [['b']])).2.connection.calls ∧
      (LeavesLines (inBatchesOf (.int 1)) (some [['b']]) →
        Unwritten obliging.server (run obliging (inBatchesOf (.int 1)) ['a'] (some [['b']]))) :=
  run_allOrNothing obliging (inBatchesOf (.int 1)) ['a'] (some [['b']]) (List.cons_ne_nil _ _)
    rfl rfl

/-- **Lines that batches are to hold none of are not written.** The transaction is committed all the
    same, but not with what the lines come to. -/
theorem unread_committed :
    ¬ AllOrNothing obliging.server none
      ((number [['b']]).map (lineResult obliging (inBatchesOf (.int 0)) ['a']))
      ((number [['b']]).map (lineResult obliging (inBatchesOf (.int 0)) ['a']))
      (run obliging (inBatchesOf (.int 0)) ['a'] (some [['b']])).2.connection.calls := by
  intro h
  have hcommit : Call.commit 3
      ∈ (run obliging (inBatchesOf (.int 0)) ['a'] (some [['b']])).2.connection.calls :=
    .tail _ (.tail _ (.head _))
  have hlength := congrArg List.length (h.complete 3 hcommit)
  revert hlength
  decide +kernel

end GraphFeed.Run
