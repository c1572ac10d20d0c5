import GraphFeed.Proofs.Announcements
import GraphFeed.Proofs.Courses

/-!
# What a run says of its transaction

A run that writes in a transaction says that nothing was committed just where it has failed. Where the
transaction was committed before, that is not so: the query at the end is sent after the commit, and
if it is refused, the run says that nothing was committed (`committed_denied`). It does not try to
take the transaction back, for there is none any more.

* `execute_apart`: a query that fails was refused in its own session, apart from the session that is
  held;
* `Outcome`, `body_outcome`: what a run comes to before reported failures are listed. Either nothing
  was committed, or the query at the end has failed, or nothing was refused at all;
* `Verdict`, `recover_verdict`, `closing_verdict`: what it comes to once they are listed;
* `rollback_announced_iff`: **the run says that nothing was committed just where it has failed, and
  after a commit just where the query at the end was refused.**
-/

namespace GraphFeed.Graph

variable {server : Server} {own : Handle} {c : Connection} {call : Call} {earlier calls : List Call}

/-! ## 1. Calls of the query at the end -/

namespace Call

/-- The call belongs to a session next to the one that a run holds. -/
def isApart (own : Option Handle) : Call → Bool
  | openSession .. | runAlone .. => true
  | closeSession session => own != some session
  | _ => false

end Call

/-- A query that fails was refused apart from the session that is held. -/
theorem runAlone_apart (hheld : Held own c) (driver : Handle) (query : Value)
    (parameters : Parameters) {e : Error}
    (he : (c.runAlone server driver query parameters).1 = .error e) :
    ∃ call ∈ refusals server (c.runAlone server driver query parameters).2.calls,
      call.isApart (some own) = true := by
  let lent := c.calls.length
  let opened : List Call := .openSession driver c.address.database :: c.calls
  let asked : List Call := .runAlone lent query parameters :: opened
  -- the session that is lent is opened after the one that is held
  have hother : some own ≠ some lent := fun h =>
    Nat.ne_of_gt hheld.earlier (Option.some.inj h).symm
  revert he
  unfold Connection.runAlone
  dsimp only [Connection.send, Connection.nextHandle, Connection.refusedStatement]
  cases hopen : server c.calls (.openSession driver c.address.database) with
  | error message =>
    intro _
    refine ⟨.openSession driver c.address.database, ?_, rfl⟩
    exact (refusals_of_refused (accepts_of_error hopen)).symm ▸ List.mem_cons_self
  | ok _ =>
    dsimp only
    cases hclose : server asked (.closeSession lent) with
    | error message =>
      intro _
      refine ⟨.closeSession lent, ?_, bne_iff_ne.mpr hother⟩
      exact (refusals_of_refused (accepts_of_error hclose)).symm ▸ List.mem_cons_self
    | ok _ =>
      cases hrun : server opened (.runAlone lent query parameters) with
      | error message =>
        intro _
        refine ⟨.runAlone lent query parameters, ?_, rfl⟩
        change _ ∈ refusals server (.closeSession lent :: asked)
        rw [refusals_of_accepted (accepts_of_ok hclose)]
        exact (refusals_of_refused (accepts_of_error hrun)).symm ▸ List.mem_cons_self
      | ok rows => exact nofun

/-- So it is with a query of its own. -/
theorem execute_apart (hheld : Held own c) (query : Value) (parameters : Parameters) {e : Error}
    (he : (c.execute server query parameters).1 = .error e) :
    ∃ call ∈ refusals server (c.execute server query parameters).2.calls,
      call.isApart (some own) = true := by
  obtain ⟨driver, hdriver⟩ := Option.isSome_iff_exists.mp hheld.driver
  have hexecute : c.execute server query parameters = c.runAlone server driver query parameters := by
    unfold Connection.execute Connection.ensureDriver
    simp only [hdriver, Option.isSome_some, if_true]
  rw [hexecute] at he ⊢
  exact runAlone_apart hheld driver query parameters he

/-! ## 2. What stays after a commit -/

theorem committed_of_notCommit (h : call.isCommit = false) :
    committed server (call :: earlier) = committed server earlier := by
  rw [committed, h, Bool.false_and, Bool.false_or]

theorem isCommit_of_isPlain (h : call.isPlain = true) : call.isCommit = false := by
  cases call <;> first | rfl | cases h

theorem isEnd_of_isPlain (h : call.isPlain = true) : call.isEnd = false := by
  cases call <;> first | rfl | cases h

/-- Plain calls commit nothing. -/
theorem Plainly.committed {k k' : Link} (h : Plainly k k') :
    Graph.committed server k'.calls = Graph.committed server k.calls := by
  let motive (calls : List Call) : Prop :=
    Graph.committed server calls = Graph.committed server k.calls
  refine h.keeps (motive := motive) (fun hplain ih => ?_) rfl
  exact (committed_of_notCommit (isCommit_of_isPlain hplain)).trans ih

/-- **The transaction was committed, and nothing was taken back.** -/
structure Sealed (server : Server) (calls : List Call) : Prop where
  committed : Graph.committed server calls = true
  kept : ∀ t, .rollback t ∉ calls

namespace Sealed

/-- It stays so, whatever is sent that ends no transaction. -/
theorem cons (h : Sealed server earlier) (hcall : call.isEnd = false) :
    Sealed server (call :: earlier) := by
  refine ⟨?_, fun t hmem => ?_⟩
  · rw [Graph.committed, h.committed, Bool.or_true]
  · rcases List.mem_cons.mp hmem with rfl | hmem
    · cases hcall
    · exact h.kept t hmem

theorem plainly {k k' : Link} (h : Sealed server k.calls) (hplainly : Plainly k k') :
    Sealed server k'.calls :=
  hplainly.keeps (fun hplain h => h.cons (isEnd_of_isPlain hplain)) h

/-- A query of its own ends no transaction. -/
theorem maybeAlone {k k' : Link} {query : Value} {parameters : Parameters}
    (h : Sealed server k.calls) (halone : MaybeAlone query parameters k k') :
    Sealed server k'.calls := by
  rcases halone with hplainly | ⟨between, session, hbefore, hafter⟩
  · exact h.plainly hplainly
  · have hasked : Sealed server (.runAlone session query parameters :: between.calls) :=
      (h.plainly hbefore).cons rfl
    exact hasked.plainly hafter

/-- A commit that is accepted, of a transaction that is open. -/
theorem of_commit {query : Option Value} {t : Handle} (h : Protocol server query (.open t) calls)
    (haccept : accepts server calls (.commit t) = true) : Sealed server (.commit t :: calls) := by
  refine ⟨?_, fun t' hmem => ?_⟩
  · rw [Graph.committed, haccept]
    rfl
  · rcases List.mem_cons.mp hmem with heq | hmem
    · cases heq
    · have hpos : 0 < calls.countP Call.isEnd := List.countP_pos_iff.mpr ⟨_, hmem, rfl⟩
      rw [h.describes.ends] at hpos
      exact Nat.lt_irrefl 0 hpos

end Sealed

/-- Closing refuses nothing apart from the session that is held. -/
theorem Closing.refused_apart {driver : Handle} {calls' : List Call} {closed : Except Error Unit}
    (h : Closing server own driver calls closed calls') (hapart : call.isApart (some own) = true) :
    call ∈ refusals server calls' ↔ call ∈ refusals server calls := by
  cases h with
  | sessionLeft hrefuse =>
    rw [refusals_of_refused hrefuse, List.mem_cons]
    refine or_iff_right ?_
    rintro rfl
    exact absurd rfl (bne_iff_ne.mp hapart)
  | driverLeft haccept hrefuse =>
    rw [refusals_of_refused hrefuse, refusals_of_accepted haccept, List.mem_cons]
    refine or_iff_right ?_
    rintro rfl
    cases hapart
  | closed haccept haccept' => rw [refusals_of_accepted haccept', refusals_of_accepted haccept]

end GraphFeed.Graph

namespace GraphFeed.Run

open GraphFeed.Graph

variable {w : Surroundings} {p : Plan} {own t : Handle} {s s' : State} {template : Text}

/-! ## 3. Before the lines are settled -/

/-- A query at the end that can be logged fails only if a call was refused apart from the session that
    is held. -/
theorem runEndQuery_apart (hsimulated : p.simulated = false) (hlog : canLogEndQuery p = true)
    (hheld : Held own s.connection) {last : Value} (hquery : p.endQuery = some last) {e : Error}
    (he : (runEndQuery w p last s).1 = .error e) :
    ∃ call ∈ refusals w.server (runEndQuery w p last s).2.connection.calls,
      call.isApart (some own) = true := by
  revert he
  unfold runEndQuery
  simp only [hsimulated, Bool.false_eq_true, if_false]
  rw [Ending.andThen_of_ok (logEndQuery_of_can hlog hquery _)]
  generalize hs' : s.noteIf (p.isAbove 0) .debug _ = s'
  have hnoted : Quiet s s' := hs' ▸ .noteIf ..
  have hquiet : Quiet s (logEndQuery p last s').2 := hnoted.trans (.logEndQuery p last s')
  have hexecuted := fun e => @execute_apart w.server own _ (hquiet.held hheld) last [] e
  unfold postAlone
  revert hexecuted
  rcases (logEndQuery p last s').2.connection.execute w.server last [] with ⟨e' | rows, c⟩
  · exact fun hexecuted _ => hexecuted e' rfl
  · exact fun _ => nofun

/-- The run holds the session that was opened first, which is the third call. -/
structure Holds (w : Surroundings) (s : State) : Prop where
  held : Held 2 s.connection
  first : firstSession w.server s.connection.calls = some 2

theorem Holds.sends {test : Call → Bool} (h : Holds w s)
    (hsends : Sends test s.connection s'.connection) : Holds w s' := by
  obtain ⟨more, _, hcalls⟩ := hsends.calls
  refine ⟨hsends.held h.held, ?_⟩
  rw [hcalls]
  exact firstSession_append more h.first

/-- **A run that has opened holds a session**, and nothing was refused so far. -/
theorem openGraph_holds (hsimulated : p.simulated = false) (halike : Alike (.start p.address) s)
    (hok : (openGraph w p s).1 = .ok ()) : Holds w (openGraph w p s).2 ∧
      refusals w.server (openGraph w p s).2.connection.calls = [] := by
  rw [openGraph_eq hsimulated] at hok ⊢
  have hnoted := halike.trans (.noted s (p.isAbove 0) .debug
    ("Connecting to Neo4j @ " ++ s.connection.address.uri.shown))
  generalize s.noteIf (p.isAbove 0) .debug _ = noted at hnoted hok ⊢
  have hconnecting := hnoted.connecting (w := w)
  dsimp only at hconnecting
  generalize (noted.onConnection fun c => c.connect w.server) = connected at hconnecting hok ⊢
  obtain ⟨e | _, s'⟩ := connected
  · cases hok
  · obtain ⟨hconnected, hdriver, hlink⟩ := connected_of_connecting hconnecting
    dsimp only at hdriver hlink
    have hcalls : s'.connection.calls = connectedCalls p.address := congrArg Link.calls hlink
    have hholds : Holds w s' := by
      refine ⟨⟨by rw [hdriver]; rfl, congrArg Link.session hlink, ?_⟩, ?_⟩
      · rw [hcalls]
        exact Nat.lt_succ_self 2
      · rw [hcalls]
        exact firstSession_connectedCalls hconnected
    obtain ⟨hsends, ⟨_, hsame⟩ | ⟨⟨e, _, he⟩, _⟩⟩ :=
      beginning_cases (w := w) (p := p) hholds.held
    · have hbegun : Holds w (beginning w p s').2 := hholds.sends hsends
      exact ⟨hbegun, hsame.trans (hcalls ▸ refusals_connectedCalls hconnected)⟩
    · change (beginning w p s').1 = _ at hok
      rw [he] at hok
      cases hok

/-- Opening commits nothing, however it ends. -/
theorem openGraph_uncommitted (hsimulated : p.simulated = false)
    (hlink : s.link = ⟨none, none, []⟩) :
    committed w.server (openGraph w p s).2.connection.calls = false := by
  obtain ⟨_, k, hplainly, hopening⟩ := openGraph_opening (w := w) hsimulated s
  have hnone : committed w.server k.calls = false := by
    rw [hplainly.committed, hlink]
    rfl
  change committed w.server (openGraph w p s).2.link.calls = false
  generalize (openGraph w p s).1 = result at hopening
  generalize (openGraph w p s).2.link = k' at hopening ⊢
  cases hopening with
  | refused | plain => exact hnone
  | begun | notBegun => exact (committed_of_notCommit rfl).trans hnone

/-- As long as the transaction is open, it is not committed. -/
theorem InTransaction.uncommitted (h : InTransaction w p t s.link) :
    committed w.server s.connection.calls = false :=
  h.protocol.describes.committed

/-- Taking the transaction back commits nothing. -/
theorem abort_committed (s : State) : committed w.server (abort w p s).connection.calls
    = committed w.server s.connection.calls := by
  unfold abort
  split
  · let noted := s.note .error "Rolling back: no changes were committed"
    cases ht : noted.connection.transaction with
    | none =>
      have hnone := noted.connection.rollback_of_none w.server ht
      exact congrArg (fun c => committed w.server c.calls) hnone
    | some t =>
      have hcalls : (noted.connection.rollback w.server).calls = .rollback t :: s.connection.calls :=
        congrArg Link.calls (noted.connection.rollback_link w.server ht)
      change committed w.server (noted.connection.rollback w.server).calls = _
      rw [hcalls]
      exact committed_of_notCommit rfl
  · rfl

section Transactional

variable (htransactional : p.transactional = true) (hsimulated : p.simulated = false)

include htransactional hsimulated

theorem usesTransaction_of_transactional : usesTransaction p = true := by
  rw [usesTransaction, htransactional, hsimulated]
  rfl

/-- Feeding leaves the transaction open, also where there is no template. -/
theorem feed_inside (template : Text) (lines : Option (List Text)) (h : Feeding w p t [] s)
    (hnone : s.failures = []) : InTransaction w p t (feed w p template lines s).2.link ∧
      ((feed w p template lines s).1 = .ok () ∨ (feed w p template lines s).2.failures = []) := by
  cases template with
  | nil => cases lines <;> exact ⟨h.inside, .inl rfl⟩
  | cons c template =>
    obtain ⟨hfed, hend⟩ := feed_feeding htransactional hsimulated (List.cons_ne_nil c template)
      lines h hnone
    exact ⟨hfed.inside, hend⟩

omit htransactional in
/-- Feeding leaves the session as it is, and where no failure is listed, no call of it was refused. -/
theorem feed_told (template : Text) (lines : Option (List Text)) (h : Holds w s) :
    Holds w (feed w p template lines s).2 ∧ ((feed w p template lines s).1 = .ok () →
      (feed w p template lines s).2.failures = [] →
        refusals w.server (feed w p template lines s).2.connection.calls
          = refusals w.server s.connection.calls) := by
  cases hcan : canFeed p template lines with
  | true =>
    obtain ⟨_, hcontained⟩ := feed_contained (w := w) hsimulated hcan h.held
    exact ⟨h.sends hcontained.works, hcontained.told⟩
  | false =>
    obtain ⟨e, _, he, hquiet⟩ := feed_faulty (w := w) hcan s
    have hworks : Works 2 s.connection (feed w p template lines s).2.connection := hquiet.works
    refine ⟨h.sends hworks, fun hok => ?_⟩
    rw [he] at hok
    cases hok

end Transactional

/-! ## 4. Before reported failures are listed -/

/-- **A run whose transaction was committed**, and that has not failed so far. -/
structure AfterCommit (w : Surroundings) (s : State) : Prop where
  holds : Holds w s
  ended : s.link.transaction = none
  settled : Sealed w.server s.connection.calls
  silent : rollbackNotice ∉ s.connection.log
  unfailed : s.failures = []

/-- **What a run comes to** before a failure that ends it is listed. -/
inductive Outcome (w : Surroundings) (p : Plan) : Ending → Prop
  /-- It has stopped before the commit was accepted. -/
  | stopped {s : State} (e : Error)
      (huncommitted : committed w.server s.connection.calls = false)
      (hsilent : rollbackNotice ∉ s.connection.log) (hunfailed : s.failures = []) :
      Outcome w p (.error e, s)
  /-- Lines have failed, and the transaction was taken back. -/
  | takenBack {s : State} (huncommitted : committed w.server s.connection.calls = false)
      (hannounced : rollbackNotice ∈ s.connection.log) (hfailed : s.failures ≠ []) :
      Outcome w p (.well s)
  | intact {s : State} (h : AfterCommit w s)
      (hrefused : refusals w.server s.connection.calls = []) : Outcome w p (.well s)
  /-- The query at the end could not be logged. -/
  | unlogged {s : State} {e : Error} (h : AfterCommit w s) (hfault : e.isReported = false)
      (hrefused : refusals w.server s.connection.calls = []) : Outcome w p (.error e, s)
  /-- The query at the end has failed. -/
  | spoilt {s : State} {e : Error} (h : AfterCommit w s) (hreported : e.isReported = true)
      (hquery : p.endQuery ≠ none) (hrefused : ∃ call ∈ refusals w.server s.connection.calls,
        call.isApart (some 2) = true) : Outcome w p (.error e, s)

/-- A part that ends by a failure has stopped the run. -/
theorem Outcome.of_error {r : Ending} {e : Error} (he : r.1 = .error e)
    (huncommitted : committed w.server r.2.connection.calls = false)
    (hsilent : rollbackNotice ∉ r.2.connection.log) (hunfailed : r.2.failures = []) :
    Outcome w p r := by
  obtain ⟨_ | _, s⟩ := r
  · exact .stopped _ huncommitted hsilent hunfailed
  · cases he

theorem transaction_of_maybeAlone {query : Value} {parameters : Parameters} {k k' : Link}
    (h : MaybeAlone query parameters k k') : k'.transaction = k.transaction := by
  rcases h with hplainly | ⟨between, session, hbefore, hafter⟩
  · exact hplainly.transaction
  · exact hafter.transaction.trans hbefore.transaction

section Transactional

variable (htransactional : p.transactional = true) (hsimulated : p.simulated = false)

include htransactional hsimulated

/-- What is done behind a commit that was accepted: nothing more is sent before the query at the
    end. -/
theorem finish_accepted (hheld : Held own s.connection) (hinside : InTransaction w p t s.link)
    (haccept : accepts w.server s.connection.calls (.commit t) = true) :
    let summed := printPending (summarize w p (s.onConnection fun c => c.commit w.server).2)
    summed.link = ⟨s.connection.session, none, .commit t :: s.connection.calls⟩ ∧
      Sealed w.server summed.link.calls ∧ Held own summed.connection ∧
      finish w p s = match p.endQuery with
        | some last => runEndQuery w p last summed
        | none => .well summed := by
  let committed := s.onConnection fun c => c.commit w.server
  obtain ⟨hlink, hanswer⟩ := s.connection.commit_link w.server hinside.transaction
  have hok : committed.1 = .ok () := by
    refine hanswer.elim And.right fun hrefuse => ?_
    rw [hrefuse.1] at haccept
    cases haccept
  have hquiet : Quiet committed.2 (printPending (summarize w p committed.2)) :=
    .summarized committed.2
  have hsummed := hquiet.link.trans hlink
  have hworks : Works own s.connection committed.2.connection := commit_contains.works
  dsimp only
  refine ⟨hsummed, ?_, hquiet.held (hworks.held hheld), ?_⟩
  · rw [hsummed]
    exact .of_commit hinside.protocol haccept
  · unfold finish
    rw [if_pos (usesTransaction_of_transactional htransactional hsimulated)]
    exact Ending.andThen_of_ok hok

/-- A commit that is refused ends the run, and nothing was committed. -/
theorem finish_refused (hinside : InTransaction w p t s.link)
    (hrefuse : accepts w.server s.connection.calls (.commit t) = false) :
    (∃ e, (finish w p s).1 = .error e) ∧ (finish w p s).2.ledger = s.ledger ∧
      committed w.server (finish w p s).2.connection.calls = false := by
  let committed := s.onConnection fun c => c.commit w.server
  obtain ⟨hlink, hanswer⟩ := s.connection.commit_link w.server hinside.transaction
  obtain ⟨e, he⟩ : ∃ e, committed.1 = .error e := by
    refine hanswer.elim (fun haccept => ?_) And.right
    rw [haccept.1] at hrefuse
    cases hrefuse
  have hfinish : finish w p s = committed := by
    unfold finish
    rw [if_pos (usesTransaction_of_transactional htransactional hsimulated)]
    exact Ending.andThen_of_error (r := committed) he
  have hcalls : committed.2.connection.calls = .commit t :: s.connection.calls :=
    congrArg Link.calls hlink
  rw [hfinish, hcalls, Graph.committed, hrefuse, Bool.and_false, Bool.false_or]
  exact ⟨⟨e, he⟩, rfl, hinside.uncommitted⟩

/-- **After a commit that was accepted only the query at the end can fail**, by a call that is refused,
    or because it cannot be logged. -/
theorem finish_of_accepted (hheld : Held own s.connection) (hinside : InTransaction w p t s.link)
    (haccept : accepts w.server s.connection.calls (.commit t) = true) :
    let r := finish w p s
    Sealed w.server r.2.connection.calls ∧ r.2.link.transaction = none ∧
      (canLogEndQuery p = true → ∀ e, r.1 = .error e → p.endQuery ≠ none ∧
        ∃ call ∈ refusals w.server r.2.connection.calls, call.isApart (some own) = true) ∧
      (canLogEndQuery p = false → (∃ e, e.isReported = false ∧ r.1 = .error e) ∧
        refusals w.server r.2.connection.calls = refusals w.server s.connection.calls) := by
  obtain ⟨hsummed, hsealed, hheld', hfinish⟩ :=
    finish_accepted htransactional hsimulated hheld hinside haccept
  generalize printPending (summarize w p _) = summed at hsummed hsealed hheld' hfinish
  have hended : summed.link.transaction = none := congrArg Link.transaction hsummed
  have hrefusals : refusals w.server summed.link.calls = refusals w.server s.connection.calls := by
    rw [hsummed]
    exact refusals_of_accepted haccept
  dsimp only
  rw [hfinish]
  cases hquery : p.endQuery with
  | none =>
    refine ⟨hsealed, hended, fun _ => nofun, fun hlog => ?_⟩
    obtain ⟨query, hsome, _⟩ := logEndQuery_of_cannot hlog
    rw [hquery] at hsome
    cases hsome
  | some last =>
    have halone := runEndQuery_maybeAlone (w := w) (s := summed) hsimulated last
    refine ⟨hsealed.maybeAlone halone, (transaction_of_maybeAlone halone).trans hended,
      fun hlog e he => ⟨Option.some_ne_none last, runEndQuery_apart hsimulated hlog hheld' hquery he⟩,
      fun hlog => ?_⟩
    obtain ⟨query, hsome, hfault⟩ := runEndQuery_unlogged hlog w
    obtain rfl : last = query := Option.some.inj (hquery.symm.trans hsome)
    obtain ⟨s', hquiet, hend⟩ := hfault summed
    dsimp only
    rw [hend]
    refine ⟨⟨_, rfl, rfl⟩, ?_⟩
    rw [← hrefusals, ← hquiet.link]
    rfl

/-- What committing comes to. -/
theorem finish_outcome (h : Holds w s) (hinside : InTransaction w p t s.link)
    (hsilent : rollbackNotice ∉ s.connection.log) (hunfailed : s.failures = [])
    (hrefused : refusals w.server s.connection.calls = []) : Outcome w p (finish w p s) := by
  have hsilent' := (finish_mute (w := w) (p := p)).silent hsilent
  have hunfailed' : (finish w p s).2.failures = [] :=
    (finish_concluded (w := w) hsimulated s).2.trans hunfailed
  cases hanswer : accepts w.server s.connection.calls (.commit t) with
  | true =>
    obtain ⟨hsettled, hended, hfailing, hunlogged⟩ :=
      finish_of_accepted htransactional hsimulated h.held hinside hanswer
    cases hlog : canLogEndQuery p with
    | true =>
      have hcontained := finish_contained (w := w) hsimulated hlog h.held
      have hholds : Holds w (finish w p s).2 := h.sends hcontained.works
      have htold := hcontained.told
      have hreported := hcontained.reported
      have hfailing := hfailing hlog
      generalize finish w p s = r at *
      obtain ⟨e | _, s'⟩ := r
      · obtain ⟨hquery, hapart⟩ := hfailing e rfl
        exact .spoilt ⟨hholds, hended, hsettled, hsilent', hunfailed'⟩ (hreported e rfl) hquery hapart
      · exact .intact ⟨hholds, hended, hsettled, hsilent', hunfailed'⟩
          ((htold rfl hunfailed').trans hrefused)
    | false =>
      obtain ⟨⟨e, hfault, he⟩, hsame⟩ := hunlogged hlog
      have hholds : Holds w (finish w p s).2 := h.sends (finish_unlogged hlog 2 s).2.2
      rw [show finish w p s = (.error e, (finish w p s).2) from Prod.ext he rfl]
      exact .unlogged ⟨hholds, hended, hsettled, hsilent', hunfailed'⟩ hfault (hsame.trans hrefused)
  | false =>
    obtain ⟨⟨e, he⟩, _, huncommitted⟩ := finish_refused htransactional hsimulated hinside hanswer
    exact .of_error he huncommitted hsilent' hunfailed'

/-- What the lines come to once they are fed. -/
theorem settle_outcome (h : Holds w s) (hinside : InTransaction w p t s.link)
    (hsilent : rollbackNotice ∉ s.connection.log)
    (hrefused : s.failures = [] → refusals w.server s.connection.calls = []) :
    Outcome w p (settle w p s) := by
  unfold settle
  split
  · rename_i hempty
    have hunfailed : s.failures = [] := List.isEmpty_iff.mp hempty
    exact finish_outcome htransactional hsimulated h hinside hsilent hunfailed (hrefused hunfailed)
  · rename_i hfailed
    have huses := usesTransaction_of_transactional htransactional hsimulated
    refine .takenBack ?_ (abort_announces huses s) ?_
    · exact (abort_committed s).trans hinside.uncommitted
    · rw [(abort_works 2 s).2, ne_eq, ← List.isEmpty_iff]
      exact hfailed

/-- **What a run comes to** between its beginning and its end. -/
theorem body_outcome (template : Text) (lines : Option (List Text))
    (halike : Alike (.start p.address) s) (hsilent : rollbackNotice ∉ s.connection.log) :
    Outcome w p (body w p template lines s) := by
  obtain ⟨hlink, hunfailed⟩ : s.link = ⟨none, none, []⟩ ∧ s.failures = [] := by
    obtain ⟨log, commands, rfl⟩ := halike
    exact ⟨rfl, rfl⟩
  have hsilent' := (openGraph_mute (w := w) (p := p)).silent hsilent
  unfold body
  rcases @openGraph_cases w p s htransactional hsimulated hlink hunfailed with
    ⟨hok, hunfailed', t, hfeeding⟩ | ⟨⟨e, he⟩, _⟩
  · obtain ⟨hholds, hrefused⟩ := openGraph_holds hsimulated halike hok
    rw [Ending.andThen_of_ok hok]
    generalize (openGraph w p s).2 = opened at *
    obtain ⟨hinside, hend⟩ :=
      feed_inside htransactional hsimulated template lines hfeeding hunfailed'
    obtain ⟨hholds', htold⟩ := feed_told hsimulated template lines hholds
    have hsilent'' := (feed_mute (w := w) (p := p) template lines).silent hsilent'
    cases hfed : (feed w p template lines opened).1 with
    | error e =>
      rw [Ending.andThen_of_error hfed]
      refine .of_error hfed hinside.uncommitted hsilent'' (hend.resolve_left ?_)
      rw [hfed]
      exact nofun
    | ok _ =>
      rw [Ending.andThen_of_ok hfed]
      exact settle_outcome htransactional hsimulated hholds' hinside hsilent'' fun hnone =>
        (htold hfed hnone).trans hrefused
  · have hledger := (openGraph_opening (w := w) hsimulated s).1
    rw [Ending.andThen_of_error he]
    exact .of_error he (openGraph_uncommitted hsimulated hlink) hsilent'
      ((congrArg Ledger.failures hledger).trans hunfailed)

/-! ## 5. The report -/

/-- **What a run tells about its transaction**: it says that nothing was committed just where it has
    failed. After a commit that is where the query at the end was refused. -/
structure Verdict (w : Surroundings) (p : Plan) (s : State) : Prop where
  listed : rollbackNotice ∈ s.connection.log ↔ s.failures ≠ []
  committed : Graph.committed w.server s.connection.calls = true →
    Holds w s ∧ Sealed w.server s.connection.calls ∧ (s.failures ≠ [] → p.endQuery ≠ none) ∧
      (s.failures ≠ [] ↔ ∃ call ∈ refusals w.server s.connection.calls,
        call.isApart (some 2) = true)

omit htransactional hsimulated in
/-- After a commit without a failure there is nothing to say. -/
theorem Verdict.of_committed (h : AfterCommit w s)
    (hrefused : refusals w.server s.connection.calls = []) : Verdict w p s := by
  refine ⟨⟨fun hmem => absurd hmem h.silent, fun hne => absurd h.unfailed hne⟩, fun _ =>
    ⟨h.holds, h.settled, fun hne => absurd h.unfailed hne, fun hne => absurd h.unfailed hne, ?_⟩⟩
  rintro ⟨call, hcall, _⟩
  have hnone : call ∈ [] := hrefused ▸ hcall
  exact absurd hnone List.not_mem_nil

omit htransactional hsimulated in
theorem Verdict.of_uncommitted (h : Graph.committed w.server s.connection.calls = false)
    (hlisted : rollbackNotice ∈ s.connection.log ↔ s.failures ≠ []) : Verdict w p s := by
  refine ⟨hlisted, fun hcommitted => ?_⟩
  rw [h] at hcommitted
  cases hcommitted

/-- Listing the failure that has ended a run, and taking the transaction back. -/
theorem recover_verdict {r : Ending} (h : Outcome w p r) : Verdict w p (recover w p r).2 := by
  have huses := usesTransaction_of_transactional htransactional hsimulated
  cases h with
  | takenBack huncommitted hannounced hfailed =>
    exact .of_uncommitted huncommitted ⟨fun _ => hfailed, fun _ => hannounced⟩
  | intact h hrefused => exact .of_committed h hrefused
  | unlogged h hfault hrefused =>
    rw [recover_of_fault rfl hfault]
    exact .of_committed h hrefused
  | @stopped s e huncommitted hsilent hunfailed =>
    cases hreported : e.isReported with
    | false =>
      rw [recover_of_fault rfl hreported]
      exact .of_uncommitted huncommitted
        ⟨fun hmem => absurd hmem hsilent, fun hne => absurd hunfailed hne⟩
    | true =>
      obtain ⟨listed, _, hlink, hlisted, hrecover⟩ :=
        recover_of_reported (w := w) (p := p) hreported s
      have hcalls : listed.connection.calls = s.connection.calls := congrArg Link.calls hlink
      have hfailed : (abort w p listed).failures ≠ [] := (abort_works 2 listed).2 ▸ hlisted
      rw [hrecover]
      refine .of_uncommitted ?_ ⟨fun _ => hfailed, fun _ => abort_announces huses listed⟩
      exact (abort_committed listed).trans (hcalls ▸ huncommitted)
  | @spoilt s e h hreported hquery hrefused =>
    obtain ⟨listed, hdriver, hlink, hlisted, hrecover⟩ :=
      recover_of_reported (w := w) (p := p) hreported s
    obtain ⟨hworks, hsame⟩ := abort_works (w := w) (p := p) 2 listed
    have hfailed : (abort w p listed).failures ≠ [] := hsame ▸ hlisted
    -- there is no transaction any more, so nothing is sent
    have habort : (abort w p listed).link = s.link :=
      (abort_of_none (by rw [hlink, h.ended])).trans hlink
    have hcalls : (abort w p listed).connection.calls = s.connection.calls :=
      congrArg Link.calls habort
    have hlistedWorks : Works 2 s.connection listed.connection := .of_eq hdriver hlink
    rw [hrecover]
    refine ⟨⟨fun _ => hfailed, fun _ => abort_announces huses listed⟩, fun _ =>
      ⟨h.holds.sends (hlistedWorks.trans hworks), hcalls ▸ h.settled, fun _ => hquery,
        fun _ => ?_, fun _ => hfailed⟩⟩
    exact hcalls.symm ▸ hrefused

omit htransactional in
/-- **Closing the connection leaves the verdict as it is.** -/
theorem closing_verdict {r : Ending} (h : Verdict w p r.2) :
    let s := (closing w p r).2
    let calls := s.connection.calls
    (rollbackNotice ∈ s.connection.log ↔ s.failures ≠ []) ∧
      (committed w.server calls = true → (∀ t, .rollback t ∉ calls) ∧
        (s.failures ≠ [] → p.endQuery ≠ none) ∧
        (s.failures ≠ [] ↔ ∃ call ∈ refusals w.server calls,
          call.isApart (firstSession w.server calls) = true)) := by
  have htacit := closing_tacit (w := w) (p := p) r
  have hplainly := r.2.connection.close_plainly w.server
  obtain ⟨hclosed, _⟩ := closing_eq (w := w) hsimulated r
  rw [hclosed] at htacit ⊢
  refine ⟨Iff.trans htacit h.listed, fun hcommitted => ?_⟩
  obtain ⟨hholds, hsealed, hquery, hrefused⟩ :=
    h.committed (hplainly.committed.symm.trans hcommitted)
  obtain ⟨driver, hdriver⟩ := Option.isSome_iff_exists.mp hholds.held.driver
  have hclosing := close_closing hholds.held w.server hdriver
  have hfirst : firstSession w.server (r.2.connection.close w.server).2.calls = some 2 := by
    obtain ⟨late, hlate⟩ := hclosing.append
    rw [hlate]
    exact firstSession_append late hholds.first
  refine ⟨(hsealed.plainly hplainly).kept, hquery, hrefused.trans ?_⟩
  dsimp only
  rw [hfirst]
  refine exists_congr fun call => and_congr_left fun hapart => ?_
  exact (hclosing.refused_apart hapart).symm

end Transactional

/-- **A run that writes in a transaction says that nothing was committed just where it has failed.**
    Where the transaction was committed, nothing is taken back any more, but the run says so all the
    same if a call of the query at the end is refused, and only then. -/
theorem rollback_announced_iff (w : Surroundings) (p : Plan) (template : Text)
    (lines : Option (List Text)) (htransactional : p.transactional = true)
    (hsimulated : p.simulated = false) :
    let s := (run w p template lines).2
    let calls := s.connection.calls
    let announced := rollbackNotice ∈ s.connection.log
    (announced ↔ s.isFailed = true) ∧
      (committed w.server calls = true → (∀ t, .rollback t ∉ calls) ∧
        (announced → p.endQuery ≠ none) ∧
        (announced ↔ ∃ call ∈ refusals w.server calls,
          call.isApart (firstSession w.server calls) = true)) := by
  dsimp only
  have hfailed : ∀ s : State, s.isFailed = true ↔ s.failures ≠ [] := fun s => by
    rw [State.isFailed, Bool.not_eq_true', List.isEmpty_eq_false_iff]
  rw [hfailed]
  unfold run
  rw [hsimulated]
  dsimp only
  cases p.checkVerbosity with
  | error e =>
    exact ⟨⟨fun hmem => absurd hmem List.not_mem_nil, fun hne => absurd rfl hne⟩,
      fun hcommitted => absurd hcommitted Bool.false_ne_true⟩
  | ok _ =>
    dsimp only
    generalize hs : ((State.start p.address).noteIf false .info _).noteIf (p.isAbove 0) .debug _ = s
    have halike : Alike (.start p.address) s := by
      rw [← hs]
      exact (Alike.noted ..).trans (Alike.noted ..)
    have hsilent : rollbackNotice ∉ s.connection.log := by
      have htacit : Tacit (State.start p.address).connection s.connection :=
        hs ▸ tacit_noteIf (.start p.address) _ _ _ (by decide)
      exact fun hmem => absurd (htacit.mp hmem) List.not_mem_nil
    have houtcome := body_outcome (w := w) htransactional hsimulated template lines halike hsilent
    obtain ⟨hlisted, htold⟩ :=
      closing_verdict hsimulated (recover_verdict htransactional hsimulated houtcome)
    refine ⟨hlisted, fun hcommitted => ?_⟩
    obtain ⟨hkept, hquery, hrefused⟩ := htold hcommitted
    exact ⟨hkept, fun hmem => hquery (hlisted.mp hmem), hlisted.trans hrefused⟩

/-- A plan that writes in a transaction, with a query at the end. -/
def inquiring : Plan := { inBatchesOf (.int 500) with endQuery := some (.text "RETURN 1") }

/-- Where the query at the end is refused, the run says that nothing was committed, and does not take
    anything back. -/
theorem rollback_announced_inquiring :
    let s := (run (refusing Call.isAlone) inquiring "a" (some ["b"])).2
    rollbackNotice ∈ s.connection.log ∧ ∀ t, .rollback t ∉ s.connection.calls := by
  intro s
  obtain ⟨_, hcommitted⟩ :=
    rollback_announced_iff (refusing Call.isAlone) inquiring "a" (some ["b"]) rfl rfl
  obtain ⟨hkept, _, hannounced⟩ := hcommitted (by decide +kernel)
  exact ⟨hannounced.mpr (by decide +kernel), hkept⟩

/-- **A run denies what it has committed**: the commit is accepted, the query behind it is refused,
    and the run says that no changes were committed. -/
theorem committed_denied :
    let s := (run (refusing Call.isAlone) inquiring "a" (some ["b"])).2
    committed (refusing Call.isAlone).server s.connection.calls = true ∧
      rollbackNotice ∈ s.connection.log := by
  decide +kernel

end GraphFeed.Run
