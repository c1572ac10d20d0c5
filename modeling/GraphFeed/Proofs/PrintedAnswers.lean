import GraphFeed.Proofs.Echo
import GraphFeed.Proofs.Verdict

/-!
# Answers that are printed

A run that writes in a transaction and prints answers as JSON keeps them until the transaction is
committed. If it is never committed, nothing is printed at all; if it is, there is one line for each
statement that was sent, in the order of the input, and then one for the query at the end.

* `replies`: the statements that were sent in transactions, each with its reply; `queried`: the query
  that was run on its own, with its rows;
* `Collects`: while lines are handled nothing is printed, and the rows of each reply are kept.
  `handle_collects`, `handleAll_collects`, `workOff_collects`, `workOffAll_collects`,
  `feed_collects`: the parts of the feeding, one from the other;
* `Disclosed`: what was kept is printed, and behind it the rows of the query at the end.
  `runEndQuery_disclosed`, `finish_disclosed`: that is so behind a commit;
* `Printing`, `body_printing` and `Faithful`: what a run prints before and after a failure that ends
  it is listed. `recover_faithful`, `closing_faithful`: its last parts print nothing;
* `output_of_commit`: **only what was committed is printed, and all of it.**
-/

namespace GraphFeed.Graph

/-! ## 1. Replies -/

section Replies

variable (server : Server)

/-- What was sent in transactions, in its order, each request with its reply: rows, or the reason for
    which it was refused. -/
def replies : List Call → List (Request × Except Text (List Row))
  | [] => []
  | call :: earlier => replies earlier ++ (call.inside?.map fun r => (r, server earlier call)).toList

/-- A query that was run in a session of its own with its rows, if `call` has closed the session right
    behind it. -/
def queriedBy (call : Call) : List Call → Option (Request × List Row)
  | .runAlone session query parameters :: earlier =>
    match call with
    | .closeSession closed =>
      if closed = session ∧ accepts server (.runAlone session query parameters :: earlier) call = true
      then (server earlier (.runAlone session query parameters)).toOption.map
        fun rows => (⟨query, parameters⟩, rows)
      else none
    | _ => none
  | _ => none

/-- The last query that was run in a session of its own with its rows, where nothing of it was
    refused. -/
def queried : List Call → Option (Request × List Row)
  | [] => none
  | call :: earlier => (queriedBy server call earlier).or (queried earlier)

end Replies

variable {server : Server} {call : Call} {earlier calls : List Call}

theorem replies_of_none (h : call.inside? = none) :
    replies server (call :: earlier) = replies server earlier := by
  rw [replies, h]
  exact List.append_nil _

theorem replies_of_some {r : Request} (h : call.inside? = some r) :
    replies server (call :: earlier) = replies server earlier ++ [(r, server earlier call)] := by
  rw [replies, h]
  rfl

/-- Replies are to the statements that were sent. -/
theorem map_fst_replies (server : Server) (calls : List Call) : (replies server calls).map Prod.fst = sent calls := by
  induction calls with
  | nil => rfl
  | cons call earlier ih =>
    cases call with
    | run t query parameters =>
      rw [replies_of_some rfl, List.map_append, ih]
      rfl
    | _ => exact (congrArg (List.map Prod.fst) (replies_of_none rfl)).trans ih

/-- Where no statement was refused, every reply is rows. -/
theorem replies_of_unrefused (h : refused server calls = false) :
    ∃ written : List (Request × List Row),
      replies server calls = written.map fun d => (d.1, .ok d.2) := by
  induction calls with
  | nil => exact ⟨[], rfl⟩
  | cons call earlier ih =>
    rw [refused, Bool.or_eq_false_iff] at h
    obtain ⟨written, hwritten⟩ := ih h.2
    cases hcall : call.inside? with
    | none => exact ⟨written, (replies_of_none hcall).trans hwritten⟩
    | some r =>
      have hrun : call.isRun = true := by cases call <;> first | rfl | cases hcall
      have haccept : accepts server earlier call = true := by simpa [hrun] using h.1
      obtain ⟨rows, hrows⟩ := answer_of_accepts haccept
      refine ⟨written ++ [(r, rows)], ?_⟩
      rw [replies_of_some hcall, hwritten, hrows, List.map_append]
      rfl

theorem Plainly.replies {k k' : Link} (h : Plainly k k') :
    Graph.replies server k'.calls = Graph.replies server k.calls := by
  let motive (calls : List Call) : Prop := Graph.replies server calls = Graph.replies server k.calls
  refine h.keeps (motive := motive) (fun {call} _ hplain ih => ?_) rfl
  have hnone : call.inside? = none := by cases call <;> first | rfl | cases hplain
  exact (replies_of_none hnone).trans ih

theorem MaybeAlone.replies {k k' : Link} {query : Value} {parameters : Parameters}
    (h : MaybeAlone query parameters k k') :
    Graph.replies server k'.calls = Graph.replies server k.calls := by
  rcases h with hplainly | ⟨between, session, hbefore, hafter⟩
  · exact hplainly.replies
  · exact hafter.replies.trans ((replies_of_none rfl).trans hbefore.replies)

/-! ## 2. The query that is run on its own -/

theorem queriedBy_of_notAlone (h : ∀ last ∈ earlier.head?, last.isAlone = false) :
    queriedBy server call earlier = none := by
  cases earlier with
  | nil => rfl
  | cons last earlier =>
    cases last with
    | runAlone => cases h _ rfl
    | _ => rfl

/-- Behind any other call, a call does not change it. -/
theorem queried_cons (h : ∀ last ∈ earlier.head?, last.isAlone = false) :
    queried server (call :: earlier) = queried server earlier := by
  rw [queried, queriedBy_of_notAlone h]
  rfl

theorem queried_of_notAlone (h : ∀ call ∈ calls, call.isAlone = false) :
    queried server calls = none := by
  induction calls with
  | nil => rfl
  | cons call earlier ih =>
    have hearlier := fun c hc => h c (List.mem_cons_of_mem _ hc)
    rw [queried_cons fun last hlast => hearlier last (List.mem_of_mem_head? hlast)]
    exact ih hearlier

/-- **Plain calls do not change it**, and none of them is a query. -/
theorem Plainly.queried {k k' : Link} (h : Plainly k k') (server : Server)
    (hlast : ∀ last ∈ k.calls.head?, last.isAlone = false) :
    Graph.queried server k'.calls = Graph.queried server k.calls ∧
      ∀ last ∈ k'.calls.head?, last.isAlone = false := by
  let motive (calls : List Call) : Prop :=
    Graph.queried server calls = Graph.queried server k.calls ∧
      ∀ last ∈ calls.head?, last.isAlone = false
  refine h.keeps (motive := motive) (fun hplain ih => ⟨(queried_cons ih.2).trans ih.1, ?_⟩) ⟨rfl, hlast⟩
  rintro _ ⟨⟩
  cases ‹Call› <;> first | rfl | cases hplain

/-- **A query of its own has rows just where it ends well.** -/
theorem runAlone_queried {c : Connection} (hnone : ∀ call ∈ c.calls, call.isAlone = false)
    (driver : Handle) (query : Value) (parameters : Parameters) :
    queried server (c.runAlone server driver query parameters).2.calls
        = (c.runAlone server driver query parameters).1.toOption.map
            (fun rows => (⟨query, parameters⟩, rows)) ∧
      ∀ last ∈ (c.runAlone server driver query parameters).2.calls.head?, last.isAlone = false := by
  let lent := c.calls.length
  let opened : List Call := .openSession driver c.address.database :: c.calls
  let asked : List Call := .runAlone lent query parameters :: opened
  have hopened : queried server opened = none :=
    queried_of_notAlone (List.forall_mem_cons.mpr ⟨rfl, hnone⟩)
  have hasked : queried server asked = none := by
    refine (queried_cons ?_).trans hopened
    rintro _ ⟨⟩
    rfl
  have hclosed : queried server (.closeSession lent :: asked)
      = if accepts server asked (.closeSession lent) = true
        then (server opened (.runAlone lent query parameters)).toOption.map
          fun rows => (⟨query, parameters⟩, rows)
        else none := by
    rw [queried, hasked, Option.or_none, queriedBy]
    simp only [true_and]
    rfl
  unfold Connection.runAlone
  dsimp only [Connection.send, Connection.nextHandle, Connection.refusedStatement]
  cases hopen : server c.calls (.openSession driver c.address.database) with
  | error message =>
    refine ⟨hopened, ?_⟩
    rintro _ ⟨⟩
    rfl
  | ok _ =>
    dsimp only
    cases hclose : server asked (.closeSession lent) with
    | error message =>
      rw [accepts_of_error hclose] at hclosed
      refine ⟨hclosed, ?_⟩
      rintro _ ⟨⟩
      rfl
    | ok _ =>
      rw [accepts_of_ok hclose, if_pos rfl] at hclosed
      cases hrun : server opened (.runAlone lent query parameters) with
      | error message =>
        rw [hrun] at hclosed
        refine ⟨hclosed, ?_⟩
        rintro _ ⟨⟩
        rfl
      | ok rows =>
        rw [hrun] at hclosed
        refine ⟨hclosed, ?_⟩
        rintro _ ⟨⟩
        rfl

/-- So does one that is executed on a connection that holds a driver. -/
theorem execute_queried {own : Handle} {c : Connection} (hheld : Held own c)
    (hnone : ∀ call ∈ c.calls, call.isAlone = false) (server : Server) (query : Value)
    (parameters : Parameters) :
    queried server (c.execute server query parameters).2.calls
        = (c.execute server query parameters).1.toOption.map
            (fun rows => (⟨query, parameters⟩, rows)) ∧
      ∀ last ∈ (c.execute server query parameters).2.calls.head?, last.isAlone = false := by
  obtain ⟨driver, hdriver⟩ := Option.isSome_iff_exists.mp hheld.driver
  have hexecute : c.execute server query parameters = c.runAlone server driver query parameters := by
    unfold Connection.execute Connection.ensureDriver
    simp only [hdriver, Option.isSome_some, if_true]
  rw [hexecute]
  exact runAlone_queried hnone driver query parameters

/-- With a session, the reply to a statement is that of the call that runs it. -/
theorem run_reply {c : Connection} {r : Request} (hs : c.session.isSome = true)
    (hcall : c.link.call? r = some call) : (c.run server r.query r.parameters).1
      = (server c.calls call).mapError fun message => .write .statement message := by
  have hensure : c.ensureSession server = (.ok (), c) := by
    rw [Connection.ensureSession, hs]
    rfl
  have hstatement : c.statementCall? r.query r.parameters = some call := hcall
  unfold Connection.run
  simp only [hensure, hstatement, Connection.send, Connection.refusedStatement]
  cases server c.calls call with
  | error message => rfl
  | ok rows => rfl

end GraphFeed.Graph

namespace GraphFeed.Run

open GraphFeed.Graph

variable {w : Surroundings} {p : Plan} {own t : Handle} {s s' s'' : State} {template : Text}

/-! ## 3. What is kept while lines are handled -/

/-- The rows among replies. -/
def rowsOf (replied : List (Request × Except Text (List Row))) : List (List Row) :=
  replied.filterMap fun d => d.2.toOption

theorem rowsOf_written (written : List (Request × List Row)) :
    rowsOf (written.map fun d => (d.1, .ok d.2)) = written.map Prod.snd := by
  rw [rowsOf, List.filterMap_map]
  exact congrFun List.filterMap_eq_map written

/-- **Nothing is printed, and the rows of what is replied are kept.** -/
structure Collects (server : Server) (s s' : State) : Prop where
  session : s'.link.session = s.link.session
  transaction : s'.link.transaction = s.link.transaction
  printed : s'.printed = s.printed
  kept : ∃ replied, replies server s'.link.calls = replies server s.link.calls ++ replied ∧
    s'.pending = s.pending ++ rowsOf replied

namespace Collects

variable {server : Server}

theorem of_eq (hlink : s'.link = s.link) (hprinted : s'.printed = s.printed)
    (hpending : s'.pending = s.pending) : Collects server s s' := by
  refine ⟨by rw [hlink], by rw [hlink], hprinted, [], ?_, ?_⟩
  · rw [hlink, List.append_nil]
  · rw [hpending]
    exact (List.append_nil _).symm

theorem of_ledger (hlink : s'.link = s.link) (hledger : s'.ledger = s.ledger) :
    Collects server s s' :=
  of_eq hlink (congrArg Ledger.printed hledger) (congrArg Ledger.pending hledger)

theorem trans (h : Collects server s s') (h' : Collects server s' s'') : Collects server s s'' := by
  obtain ⟨replied, hreplies, hpending⟩ := h.kept
  obtain ⟨replied', hreplies', hpending'⟩ := h'.kept
  refine ⟨h'.session.trans h.session, h'.transaction.trans h.transaction,
    h'.printed.trans h.printed, replied ++ replied', ?_, ?_⟩
  · rw [hreplies', hreplies, List.append_assoc]
  · rw [hpending', hpending, List.append_assoc, rowsOf, rowsOf, rowsOf, List.filterMap_append]

/-- Statements can be sent as before. -/
theorem ready (h : Collects server s s') (hready : Ready Call.inside? s.link) :
    Ready Call.inside? s'.link :=
  hready.of_eq h.session h.transaction

theorem failAll (errors : List (Line × Error)) (s : State) : Collects server s (s.failAll errors) := by
  have hshows := Shows.failAll errors s
  exact of_eq (link_failAll s errors) hshows.printed hshows.pending

end Collects

/-- A statement is sent by one call, and its reply decides on what follows. -/
theorem post_eq {st : Statement} {call : Call} (hsession : s.link.session.isSome = true)
    (hcall : s.link.call? st = some call) :
    ∃ c : Connection, c.link = ⟨s.link.session, s.link.transaction, call :: s.link.calls⟩ ∧
      post w p st s = match w.server s.link.calls call with
        | .error message => (.error (.write .statement message), { s with connection := c })
        | .ok rows => .well (({ s with connection := c } : State).answer p rows) := by
  have hreply : (s.connection.run w.server st.query st.parameters).1 = _ :=
    run_reply hsession hcall
  obtain ⟨hlink, -⟩ := s.connection.run_call w.server hsession hcall
  generalize hrun : s.connection.run w.server st.query st.parameters = r at hreply hlink
  obtain ⟨result, c⟩ := r
  dsimp only at hreply hlink
  refine ⟨c, hlink, ?_⟩
  unfold post
  rw [hrun, hreply]
  change _ = match w.server s.connection.calls call with | .error _ => _ | .ok _ => _
  cases w.server s.connection.calls call with
  | error message => rfl
  | ok rows => rfl

section Feeding

variable (hjson : p.output = .json) (htransactional : p.transactional = true)
  (hsimulated : p.simulated = false)

include hjson htransactional

/-- Rows are counted and kept. -/
theorem ledger_answer_json (s : State) (rows : List Row) : (s.answer p rows).ledger
    = { s.ledger with expressions := s.expressions + 1, pending := s.pending ++ [rows] } := by
  unfold State.answer
  dsimp only
  rw [if_pos hjson, if_pos htransactional]
  rfl

/-- **The rows of a statement that is sent are kept**, unless it is refused. -/
theorem post_collects (hready : Ready Call.inside? s.link) (st : Statement) (line : Option Line) :
    ((post w p st s).listing line).1 = .ok () ∧
      Collects w.server s ((post w p st s).listing line).2 := by
  obtain ⟨call, hcall, hinside⟩ := hready.call st
  obtain ⟨c, hlink, hpost⟩ := post_eq (w := w) (p := p) hready.session hcall
  have hsession : c.link.session = s.link.session := by rw [hlink]
  have htransaction : c.link.transaction = s.link.transaction := by rw [hlink]
  have hreplies : replies w.server c.link.calls
      = replies w.server s.link.calls ++ [((st : Request), w.server s.link.calls call)] := by
    rw [hlink]
    exact replies_of_some hinside
  cases hserver : w.server s.link.calls call with
  | error message =>
    rw [hserver] at hpost hreplies
    rw [hpost]
    exact ⟨rfl, hsession, htransaction, rfl, _, hreplies, (List.append_nil _).symm⟩
  | ok rows =>
    rw [hserver] at hpost hreplies
    have hledger := ledger_answer_json hjson htransactional { s with connection := c } rows
    have hanswered : (({ s with connection := c } : State).answer p rows).link = c.link :=
      link_answer ..
    rw [hpost]
    exact ⟨rfl, (congrArg Link.session hanswered).trans hsession,
      (congrArg Link.transaction hanswered).trans htransaction, congrArg Ledger.printed hledger,
      [(st, .ok rows)], (congrArg (fun k => replies w.server k.calls) hanswered).trans hreplies,
      congrArg Ledger.pending hledger⟩

include hsimulated

/-- So are those of a statement that is handled. -/
theorem send_collects (hready : Ready Call.inside? s.link) (st : Statement) (line : Option Line) :
    ((send w p st s).listing line).1 = .ok () ∧
      Collects w.server s ((send w p st s).listing line).2 := by
  rw [send_eq hsimulated]
  let noted := s.noteIf (p.isAbove 1) .debug (statementNotice st)
  have hlink : noted.link = s.link := link_noteIf ..
  have hnoted : Collects w.server s noted := .of_ledger hlink (ledger_noteIf ..)
  dsimp only
  split
  · exact ⟨rfl, hnoted⟩
  · obtain ⟨hok, hposted⟩ := post_collects (w := w) hjson htransactional (hnoted.ready hready) st line
    exact ⟨hok, hnoted.trans hposted⟩

/-- **An expansion that is handled prints nothing**, and the rows of its statement are kept. -/
theorem handle_collects (hready : Ready Call.inside? s.link) (x : Expanded) :
    (handle w p x s).1 = .ok () ∧ Collects w.server s (handle w p x s).2 := by
  have hnothing : shownLines p.output x = [] := by
    rw [shownLines, hjson]
    cases x.instruction <;> cases x.line <;> rfl
  have hledger : (s.shown p x).ledger = s.ledger := by
    rw [ledger_shown, hnothing]
    rfl
  have hshown : Collects w.server s (s.shown p x) := .of_ledger (link_shown ..) hledger
  cases hx : x.instruction.bind (compile w p) with
  | error e =>
    rw [handle_of_error hx]
    exact ⟨rfl, hshown.trans (.of_eq rfl rfl rfl)⟩
  | ok statement? =>
    cases statement? with
    | none =>
      obtain ⟨notice, hhandle⟩ := handle_of_none (w := w) hx s
      rw [hhandle]
      exact ⟨rfl, hshown.trans (.of_eq rfl rfl rfl)⟩
    | some st =>
      rw [handle_of_some hx]
      obtain ⟨hok, hsent⟩ :=
        send_collects (w := w) hjson htransactional hsimulated (hshown.ready hready) st x.line
      exact ⟨hok, hshown.trans hsent⟩

theorem handleAll_collects (xs : List Expanded) : ∀ {s : State}, Ready Call.inside? s.link →
    (handleAll w p xs s).1 = .ok () ∧ Collects w.server s (handleAll w p xs s).2 := by
  induction xs with
  | nil => exact fun _ => ⟨rfl, .of_eq rfl rfl rfl⟩
  | cons x xs ih =>
    intro s hready
    obtain ⟨hok, hone⟩ := handle_collects (w := w) hjson htransactional hsimulated hready x
    obtain ⟨hrest, hothers⟩ := ih (hone.ready hready)
    rw [handleAll, Ending.andThen_of_ok hok]
    exact ⟨hrest, hone.trans hothers⟩

theorem workOff_collects {n : Int} (hn : p.batches.size.index = .ok n) (hpos : 0 < n)
    (hworkers : p.batches.hasWorkers = true) (hready : Ready Call.inside? s.link) (template : Text)
    (number : Nat) (batch : List Line) :
    (workOff w p template number batch s).1 = .ok () ∧
      Collects w.server s (workOff w p template number batch s).2 := by
  obtain ⟨report, hreport⟩ := Batch.process_of_hasWorkers (expandOne w p template) hn hpos
    hworkers (fun _ => w.orders number) batch
  unfold workOff
  simp only [hreport]
  generalize hs' : ({ s.recordAll _ with commands := _ } : State) = s'
  have hlogged : Collects w.server s s' := by
    rw [← hs']
    exact .of_ledger (link_recordAll ..) (ledger_recordAll ..)
  obtain ⟨hok, hhandled⟩ := handleAll_collects (w := w) hjson htransactional hsimulated
    report.results (hlogged.ready hready)
  rw [Ending.andThen_of_ok hok]
  exact ⟨rfl, hlogged.trans (hhandled.trans (.failAll report.errors _))⟩

theorem workOffAll_collects {n : Int} (hn : p.batches.size.index = .ok n) (hpos : 0 < n)
    (hworkers : p.batches.hasWorkers = true) (template : Text) (parts : List (List Line)) :
    ∀ {s : State}, Ready Call.inside? s.link → ∀ number : Nat,
      Collects w.server s (workOffAll w p template number parts s).2 := by
  induction parts with
  | nil => exact fun _ _ => .of_eq rfl rfl rfl
  | cons batch parts ih =>
    intro s hready number
    obtain ⟨hok, hone⟩ := workOff_collects (w := w) hjson htransactional hsimulated hn hpos hworkers
      hready template number batch
    rw [workOffAll, Ending.andThen_of_ok hok]
    exact hone.trans (ih (hone.ready hready) (number + 1))

/-- **Feeding prints nothing**, and the rows of all statements that are sent are kept. -/
theorem feed_collects (hready : Ready Call.inside? s.link) (template : Text)
    (lines : Option (List Text)) : Collects w.server s (feed w p template lines s).2 := by
  unfold feed
  cases lines with
  | none =>
    dsimp only
    split
    · exact .of_eq rfl rfl rfl
    · exact (handle_collects hjson htransactional hsimulated hready _).2
  | some lines =>
    dsimp only
    split
    · exact .of_ledger (link_note ..) (ledger_note ..)
    · generalize hs' : s.noteIf (p.isAbove 0) .debug _ = s'
      have hnoted : Collects w.server s s' := by
        rw [← hs']
        exact .of_ledger (link_noteIf ..) (ledger_noteIf ..)
      cases hbatches : makesBatches p with
      | true =>
        obtain ⟨n, parts, hn, hpos, hworkers, -, hwork⟩ :=
          processLines_of_makesBatches hbatches w template lines s'
        rw [hwork]
        exact hnoted.trans (workOffAll_collects hjson htransactional hsimulated hn hpos hworkers
          template parts (hnoted.ready hready) 0)
      | false =>
        obtain ⟨hlink, hledger, _⟩ := processLines_of_noBatches (w := w) hbatches template lines s'
        exact hnoted.trans (.of_ledger hlink hledger)

end Feeding

/-! ## 4. What is printed behind the commit -/

/-- Rows as they are printed. -/
def answerLine (rows : List Row) : Text := (Value.list rows).json

/-- The query at the end as it is sent, if there is one and it can be logged. -/
def endRequest (p : Plan) : Option Request :=
  if canLogEndQuery p then p.endQuery.map fun last => ⟨last, []⟩ else none

/-- **What was kept is printed**, for it was committed, and behind it the rows of the query at the
    end, if it has any. -/
structure Disclosed (server : Server) (written : List (Request × List Row)) (s : State) : Prop where
  settled : Sealed server s.link.calls
  ended : s.link.transaction = none
  replied : replies server s.link.calls = written.map fun d => (d.1, .ok d.2)
  printed : s.printed
    = ((written ++ (queried server s.link.calls).toList).map fun d => answerLine d.2).reverse
  lastCall : ∀ last ∈ s.link.calls.head?, last.isAlone = false

namespace Disclosed

variable {server : Server} {written : List (Request × List Row)}

/-- Plain calls do not change it. -/
theorem plainly (h : Disclosed server written s) (hplainly : Plainly s.link s'.link)
    (hprinted : s'.printed = s.printed) : Disclosed server written s' ∧
      queried server s'.link.calls = queried server s.link.calls := by
  obtain ⟨hqueried, hlast⟩ := hplainly.queried server h.lastCall
  refine ⟨⟨h.settled.plainly hplainly, hplainly.transaction.trans h.ended,
    hplainly.replies.trans h.replied, ?_, hlast⟩, hqueried⟩
  rw [hprinted, h.printed, hqueried]

theorem of_eq (h : Disclosed server written s) (hlink : s'.link = s.link)
    (hprinted : s'.printed = s.printed) : Disclosed server written s' :=
  (h.plainly (hlink ▸ .refl s.link) hprinted).1

end Disclosed

section Concluding

variable (hjson : p.output = .json) (hsimulated : p.simulated = false)

include hjson

/-- **A query of its own prints its rows**, and it has rows just where it ends well. -/
theorem postAlone_prints (hheld : Held own s.connection)
    (hnone : ∀ call ∈ s.connection.calls, call.isAlone = false) (last : Value) :
    let r := postAlone w p last s
    let asked := queried w.server r.2.link.calls
    r.2.printed = (asked.toList.map fun d => answerLine d.2).reverse ++ s.printed ∧
      asked.map Prod.fst = r.1.toOption.map (fun _ => ⟨last, []⟩) ∧
      ∀ call ∈ r.2.link.calls.head?, call.isAlone = false := by
  obtain ⟨hqueried, hlast⟩ := execute_queried hheld hnone w.server last []
  unfold postAlone
  generalize s.connection.execute w.server last [] = executed at hqueried hlast ⊢
  obtain ⟨e | rows, c⟩ := executed
  · have hasked : queried w.server c.link.calls = none := hqueried
    dsimp only
    refine ⟨?_, ?_, hlast⟩
    · change s.printed
        = ((queried w.server c.link.calls).toList.map fun d => answerLine d.2).reverse ++ s.printed
      rw [hasked]
      rfl
    · change (queried w.server c.link.calls).map Prod.fst = none
      rw [hasked]
      rfl
  · have hasked : queried w.server c.link.calls = some (⟨last, []⟩, rows) := hqueried
    have hshown : (p.showResults || decide (p.output = .json)) = true := by
      rw [hjson]
      exact Bool.or_true _
    dsimp only
    rw [if_pos hshown]
    refine ⟨?_, ?_, hlast⟩
    · change answerLine rows :: s.printed
        = ((queried w.server c.link.calls).toList.map fun d => answerLine d.2).reverse ++ s.printed
      rw [hasked]
      rfl
    · change (queried w.server c.link.calls).map Prod.fst = some ⟨last, []⟩
      rw [hasked]
      rfl

include hsimulated

/-- So does the query at the end. -/
theorem runEndQuery_prints (hheld : Held own s.connection)
    (hnone : ∀ call ∈ s.connection.calls, call.isAlone = false) (last : Value) :
    let r := runEndQuery w p last s
    let asked := queried w.server r.2.link.calls
    r.2.printed = (asked.toList.map fun d => answerLine d.2).reverse ++ s.printed ∧
      asked.map Prod.fst = r.1.toOption.map (fun _ => ⟨last, []⟩) ∧
      ∀ call ∈ r.2.link.calls.head?, call.isAlone = false := by
  unfold runEndQuery
  simp only [hsimulated, Bool.false_eq_true, if_false]
  generalize hs' : s.noteIf (p.isAbove 0) .debug _ = s'
  have hnoted : Quiet s s' := hs' ▸ .noteIf ..
  have hquiet : Quiet s (logEndQuery p last s').2 := hnoted.trans (.logEndQuery p last s')
  have hledger : (logEndQuery p last s').2.ledger = s.ledger := by
    rw [ledger_logEndQuery, ← hs', ledger_noteIf]
  have hunasked : ∀ call ∈ (logEndQuery p last s').2.link.calls, call.isAlone = false := by
    rw [hquiet.link]
    exact hnone
  rw [show s.printed = (logEndQuery p last s').2.printed from (congrArg Ledger.printed hledger).symm]
  cases hlog : (logEndQuery p last s').1 with
  | error e =>
    -- the query is not sent, and none was sent before
    have hunqueried : queried w.server (logEndQuery p last s').2.link.calls = none :=
      queried_of_notAlone hunasked
    rw [Ending.andThen_of_error hlog, hunqueried, hlog]
    exact ⟨rfl, rfl, fun call hcall => hunasked call (List.mem_of_mem_head? hcall)⟩
  | ok _ =>
    rw [Ending.andThen_of_ok hlog]
    exact postAlone_prints hjson (hquiet.held hheld) hunasked last

/-- **The query at the end adds its rows** to what was disclosed. -/
theorem runEndQuery_disclosed {written : List (Request × List Row)}
    (h : Disclosed w.server written s) (hheld : Held own s.connection)
    (hnone : ∀ call ∈ s.connection.calls, call.isAlone = false) (last : Value) :
    let r := runEndQuery w p last s
    Disclosed w.server written r.2 ∧
      (queried w.server r.2.link.calls).map Prod.fst = r.1.toOption.map (fun _ => ⟨last, []⟩) := by
  have hmaybe := runEndQuery_maybeAlone (w := w) (s := s) hsimulated last
  obtain ⟨hprinted, hqueried, hlast⟩ :=
    runEndQuery_prints (w := w) hjson hsimulated hheld hnone last
  have hunqueried : queried w.server s.link.calls = none := queried_of_notAlone hnone
  have hkept : s.printed = (written.map fun d => answerLine d.2).reverse := by
    rw [h.printed, hunqueried, Option.toList_none, List.append_nil]
  refine ⟨⟨h.settled.maybeAlone hmaybe, (transaction_of_maybeAlone hmaybe).trans h.ended,
    hmaybe.replies.trans h.replied, ?_, hlast⟩, hqueried⟩
  rw [hprinted, hkept, List.map_append, List.reverse_append]

omit hsimulated hjson in
/-- What was kept of answers is printed, where nothing was printed before. -/
theorem printed_printPending {s' : State} (hledger : s'.ledger = s.ledger)
    {written : List (Request × List Row)} (hpending : s.pending = written.map Prod.snd)
    (hprinted : s.printed = []) :
    (printPending s').printed = (written.map fun d => answerLine d.2).reverse := by
  rw [printPending_eq, show s'.pending = s.pending from congrArg Ledger.pending hledger,
    show s'.printed = s.printed from congrArg Ledger.printed hledger, hpending, hprinted,
    List.map_map]
  exact List.append_nil _

variable (htransactional : p.transactional = true)

include htransactional

/-- **What was kept is printed behind a commit that is accepted**, and the query at the end has rows
    if there is one and it ends well. -/
theorem finish_disclosed (hheld : Held own s.connection) (hinside : InTransaction w p t s.link)
    (haccept : accepts w.server s.connection.calls (.commit t) = true)
    {written : List (Request × List Row)}
    (hreplied : replies w.server s.link.calls = written.map fun d => (d.1, .ok d.2))
    (hpending : s.pending = written.map Prod.snd) (hprinted : s.printed = []) :
    let r := finish w p s
    Disclosed w.server written r.2 ∧
      (queried w.server r.2.link.calls).map Prod.fst = r.1.toOption.bind fun _ => endRequest p := by
  obtain ⟨hsummed, hsealed, hheld', hfinish⟩ :=
    finish_accepted htransactional hsimulated hheld hinside haccept
  have hshown : (printPending (summarize w p (s.onConnection fun c => c.commit w.server).2)).printed
      = (written.map fun d => answerLine d.2).reverse :=
    printed_printPending (ledger_summarize ..) hpending hprinted
  generalize printPending (summarize w p _) = summed at hsummed hsealed hheld' hfinish hshown
  have hcalls : summed.link.calls = .commit t :: s.link.calls := congrArg Link.calls hsummed
  have hnone : ∀ call ∈ summed.link.calls, call.isAlone = false := by
    rw [hcalls]
    refine List.forall_mem_cons.mpr ⟨rfl, fun call hcall => Bool.eq_false_iff.mpr fun h => ?_⟩
    have hpos : 0 < s.link.calls.countP Call.isAlone := List.countP_pos_iff.mpr ⟨call, hcall, h⟩
    rw [hinside.protocol.describes.alone] at hpos
    exact Nat.lt_irrefl 0 hpos
  have hunqueried : queried w.server summed.link.calls = none := queried_of_notAlone hnone
  have hdisclosed : Disclosed w.server written summed := by
    refine ⟨hsealed, congrArg Link.transaction hsummed, ?_, ?_, fun last hlast =>
      hnone last (List.mem_of_mem_head? hlast)⟩
    · rw [hcalls]
      exact (replies_of_none rfl).trans hreplied
    · rw [hshown, hunqueried, Option.toList_none, List.append_nil]
  dsimp only
  rw [hfinish]
  cases hquery : p.endQuery with
  | none =>
    have hendless : endRequest p = none := by
      rw [endRequest, hquery]
      exact ite_self none
    refine ⟨hdisclosed, ?_⟩
    change (queried w.server summed.link.calls).map Prod.fst = (some ()).bind fun _ => endRequest p
    rw [hunqueried, hendless]
    rfl
  | some last =>
    obtain ⟨hlast, hqueried⟩ :=
      runEndQuery_disclosed (w := w) hjson hsimulated hdisclosed hheld' hnone last
    refine ⟨hlast, hqueried.trans ?_⟩
    cases hlog : canLogEndQuery p with
    | true =>
      rw [endRequest, hlog, hquery]
      exact Option.map_eq_bind
    | false =>
      obtain ⟨query, hsome, hfault⟩ := runEndQuery_unlogged hlog w
      obtain rfl : last = query := Option.some.inj (hquery.symm.trans hsome)
      obtain ⟨s', _, hend⟩ := hfault summed
      dsimp only
      rw [hend]
      rfl

end Concluding

/-! ## 5. A template that is empty -/

/-- A template that is empty expands to nothing, whatever would fill its fields. -/
theorem result_of_empty (filler : Filler) (runner : Runner) :
    (Expansion.ofFields runner ((GraphFeed.settle filler (Buffer.ofTemplate []).spareMarks
      (Buffer.ofTemplate []).cells).onBuffer (Buffer.ofTemplate []).spareMarks)).result = .ok [] := by
  have hsettle : GraphFeed.settle filler (Buffer.ofTemplate []).spareMarks [] = ⟨[], [], none⟩ := by
    rw [GraphFeed.settle]
    dsimp only
    rw [sweep_nil, dif_neg fun h => h.2 rfl]
    rfl
  have hcells : (Buffer.ofTemplate []).cells = [] := rfl
  have hrest : (Buffer.ofCells [] (Buffer.ofTemplate []).spareMarks).cells = [] := rfl
  rw [hcells, hsettle]
  unfold Expansion.ofFields resolveCommands
  dsimp only [Progress.onBuffer]
  rw [hrest, sweep_nil]
  rfl

/-- So a line expands to nothing with it, if it can be split. -/
theorem expansion_of_empty (w : Surroundings) (p : Plan) (line : Line) :
    (expansion w p [] line).result = .ok [] ∨ ∃ e, (expansion w p [] line).result = .error e := by
  unfold expansion
  cases p.splitter with
  | ok s =>
    dsimp only
    unfold expandLine
    cases s.split line.text with
    | error e => exact .inr ⟨e, rfl⟩
    | ok record => exact .inl (result_of_empty _ _)
  | error odd =>
    dsimp only
    unfold expandLineOddly
    split
    · split
      · exact .inl (result_of_empty _ _)
      · exact .inl (result_of_empty _ _)
    · exact .inr ⟨_, rfl⟩

/-- So no statement is made of it. -/
theorem statements_of_empty (w : Surroundings) (p : Plan) (lines : Option (List Text)) :
    statements (results w p [] lines) = [] := by
  cases lines with
  | none => rfl
  | some lines =>
    refine List.filterMap_eq_nil_iff.mpr fun result hresult => ?_
    obtain ⟨line, -, rfl⟩ := List.mem_map.mp hresult
    unfold lineResult
    rcases expansion_of_empty w p line with h | ⟨e, h⟩
    · rw [h]
      rfl
    · rw [h]
      rfl

/-! ## 6. Whole runs -/

/-- Opening replies to no statement. -/
theorem openGraph_replies (hsimulated : p.simulated = false) (hlink : s.link = ⟨none, none, []⟩) :
    replies w.server (openGraph w p s).2.link.calls = [] := by
  obtain ⟨_, k, hplainly, hopening⟩ := openGraph_opening (w := w) hsimulated s
  have hnone : replies w.server k.calls = [] := by
    rw [hplainly.replies, hlink]
    rfl
  generalize (openGraph w p s).1 = result at hopening
  generalize (openGraph w p s).2.link = k' at hopening ⊢
  cases hopening with
  | refused | plain => exact hnone
  | begun | notBegun => exact (replies_of_none rfl).trans hnone

/-- Listing the failure that has ended a run commits nothing. -/
theorem recover_committed (r : Ending) : committed w.server (recover w p r).2.connection.calls
    = committed w.server r.2.connection.calls := by
  obtain ⟨e | _, s⟩ := r
  · cases hreported : e.isReported with
    | true =>
      obtain ⟨listed, _, hlink, _, hrecover⟩ :=
        recover_of_reported (w := w) (p := p) hreported s
      rw [hrecover]
      exact (abort_committed listed).trans (congrArg (fun k => committed w.server k.calls) hlink)
    | false => rw [recover_of_fault rfl hreported]
  · rfl

/-- **What a run prints** before a failure that ends it is listed: nothing as long as nothing was
    committed, and then what was kept. -/
inductive Printing (w : Surroundings) (p : Plan) (res : List (Except Error (Option Statement)))
    (r : Ending) : Prop
  | withheld (huncommitted : committed w.server r.2.connection.calls = false)
      (hprinted : r.2.printed = [])
  | disclosed {written : List (Request × List Row)} (h : Disclosed w.server written r.2)
      (hwritten : written.map Prod.fst = statements res) (hunfailed : r.2.failures = [])
      (hreported : ∀ e, r.1 = .error e → e.isReported = true ∨ endRequest p = none)
      (hqueried : (queried w.server r.2.link.calls).map Prod.fst
        = r.1.toOption.bind fun _ => endRequest p)

/-- **What a run has printed in the end.** -/
structure Faithful (w : Surroundings) (p : Plan) (res : List (Except Error (Option Statement)))
    (s : State) : Prop where
  withheld : committed w.server s.connection.calls = false → s.printed = []
  disclosed : committed w.server s.connection.calls = true →
    ∃ written, Disclosed w.server written s ∧ written.map Prod.fst = statements res ∧
      (queried w.server s.link.calls).map Prod.fst = if s.isFailed then none else endRequest p

section Whole

variable (hjson : p.output = .json) (htransactional : p.transactional = true)
  (hsimulated : p.simulated = false)

include htransactional hsimulated

/-- Where no failure is listed, no statement was refused, and those of the lines were sent. -/
theorem feed_sent (template : Text) (lines : Option (List Text)) (h : Feeding w p t [] s)
    (hnone : s.failures = []) (hfed : (feed w p template lines s).2.failures = []) :
    refused w.server (feed w p template lines s).2.link.calls = false ∧
      sent (feed w p template lines s).2.link.calls = statements (results w p template lines) := by
  cases template with
  | nil =>
    have hclean := h.clean hnone
    have hlink : (feed w p [] lines s).2.link = s.link := by cases lines <;> rfl
    rw [hlink, statements_of_empty]
    exact ⟨hclean.noRefusal, hclean.complete⟩
  | cons c template =>
    obtain ⟨hfeeding, _⟩ := feed_feeding htransactional hsimulated (List.cons_ne_nil c template)
      lines h hnone
    have hclean := hfeeding.clean hfed
    exact ⟨hclean.noRefusal, hclean.complete⟩

include hjson

/-- What committing prints. -/
theorem finish_printing (h : Holds w s) (hinside : InTransaction w p t s.link)
    (hunfailed : s.failures = []) (hprinted : s.printed = [])
    (hpending : s.pending = rowsOf (replies w.server s.link.calls))
    (hrefused : refused w.server s.link.calls = false)
    {res : List (Except Error (Option Statement))} (hsent : sent s.link.calls = statements res) :
    Printing w p res (finish w p s) := by
  cases haccept : accepts w.server s.connection.calls (.commit t) with
  | true =>
    obtain ⟨written, hreplied⟩ := replies_of_unrefused hrefused
    have hkept : s.pending = written.map Prod.snd := by
      rw [hpending, hreplied, rowsOf_written]
    have hwritten : written.map Prod.fst = statements res := by
      rw [← hsent, ← map_fst_replies w.server, hreplied, List.map_map]
      rfl
    obtain ⟨hdisclosed, hqueried⟩ := finish_disclosed hjson hsimulated htransactional h.held hinside
      haccept hreplied hkept hprinted
    refine .disclosed hdisclosed hwritten ((finish_concluded (w := w) hsimulated s).2.trans hunfailed)
      (fun e he => ?_) hqueried
    cases hlog : canLogEndQuery p with
    | true => exact .inl ((finish_contained (w := w) hsimulated hlog h.held).reported e he)
    | false =>
      refine .inr ?_
      rw [endRequest, hlog]
      rfl
  | false =>
    obtain ⟨_, hledger, huncommitted⟩ := finish_refused htransactional hsimulated hinside haccept
    exact .withheld huncommitted ((congrArg Ledger.printed hledger).trans hprinted)

/-- **What a run prints** between its beginning and its end. -/
theorem body_printing (template : Text) (lines : Option (List Text))
    (halike : Alike (.start p.address) s) :
    Printing w p (results w p template lines) (body w p template lines s) := by
  obtain ⟨hlink, hunfailed, hledger⟩ : s.link = ⟨none, none, []⟩ ∧ s.failures = [] ∧
      s.ledger = (State.start p.address).ledger := by
    obtain ⟨log, commands, rfl⟩ := halike
    exact ⟨rfl, rfl, rfl⟩
  have hopening : (openGraph w p s).2.ledger = (State.start p.address).ledger :=
    (ledger_openGraph s).trans hledger
  have hunreplied := openGraph_replies (w := w) hsimulated hlink
  have huncommitted := openGraph_uncommitted (w := w) hsimulated hlink
  unfold body
  rcases @openGraph_cases w p s htransactional hsimulated hlink hunfailed with
    ⟨hok, hunfailed', t, hfeeding⟩ | ⟨⟨e, he⟩, _⟩
  · obtain ⟨hholds, _⟩ := openGraph_holds hsimulated halike hok
    rw [Ending.andThen_of_ok hok]
    generalize (openGraph w p s).2 = opened at *
    obtain ⟨hinside, _⟩ :=
      feed_inside htransactional hsimulated template lines hfeeding hunfailed'
    obtain ⟨hholds', _⟩ := feed_told hsimulated template lines hholds
    have hcollected := feed_collects (w := w) hjson htransactional hsimulated
      (.inside hfeeding.inside.session hfeeding.inside.transaction) template lines
    have hsent := feed_sent htransactional hsimulated template lines hfeeding hunfailed'
    generalize feed w p template lines opened = fed at *
    have hprinted : fed.2.printed = [] :=
      hcollected.printed.trans (congrArg Ledger.printed hopening)
    obtain ⟨e | _, s'⟩ := fed
    · exact .withheld hinside.uncommitted hprinted
    · rw [Ending.andThen_of_ok rfl]
      split
      · rename_i hempty
        have hnone : s'.failures = [] := List.isEmpty_iff.mp hempty
        obtain ⟨hrefused, hstatements⟩ := hsent hnone
        obtain ⟨replied, hreplies, hpending⟩ := hcollected.kept
        rw [hunreplied, List.nil_append] at hreplies
        rw [show opened.pending = [] from congrArg Ledger.pending hopening, List.nil_append,
          ← hreplies] at hpending
        exact finish_printing hjson htransactional hsimulated hholds' hinside hnone hprinted hpending
          hrefused hstatements
      · refine .withheld ((abort_committed s').trans hinside.uncommitted) ?_
        exact (congrArg Ledger.printed (ledger_abort s')).trans hprinted
  · rw [Ending.andThen_of_error he]
    exact .withheld huncommitted (congrArg Ledger.printed hopening)

end Whole

theorem Faithful.of_disclosed {res : List (Except Error (Option Statement))}
    {written : List (Request × List Row)} (h : Disclosed w.server written s)
    (hwritten : written.map Prod.fst = statements res)
    (hqueried : (queried w.server s.link.calls).map Prod.fst
      = if s.isFailed then none else endRequest p) : Faithful w p res s := by
  refine ⟨fun huncommitted => ?_, fun _ => ⟨written, h, hwritten, hqueried⟩⟩
  exact absurd (huncommitted.symm.trans h.settled.committed) Bool.false_ne_true

/-- Listing the failure that has ended a run prints nothing, and commits nothing. -/
theorem recover_faithful {res : List (Except Error (Option Statement))} {r : Ending}
    (h : Printing w p res r) : Faithful w p res (recover w p r).2 := by
  cases h with
  | withheld huncommitted hprinted =>
    have hnone := (recover_committed (w := w) (p := p) r).trans huncommitted
    refine ⟨fun _ => (recover_shows r).printed.trans hprinted, fun hcommitted => ?_⟩
    rw [hnone] at hcommitted
    cases hcommitted
  | @disclosed written h hwritten hunfailed hreported hqueried =>
    obtain ⟨e | _, s⟩ := r
    · cases hclass : e.isReported with
      | true =>
        obtain ⟨listed, _, hlink, hlisted, hrecover⟩ :=
          recover_of_reported (w := w) (p := p) hclass s
        have hprinted := (recover_shows (w := w) (p := p) (.error e, s)).printed
        rw [hrecover] at hprinted ⊢
        -- there is no transaction any more, so nothing is sent
        have habort : (abort w p listed).link = s.link :=
          (abort_of_none (by rw [hlink]; exact h.ended)).trans hlink
        have hfailed : (abort w p listed).isFailed = true := by
          rw [State.isFailed, (abort_works 2 listed).2, Bool.not_eq_true', List.isEmpty_eq_false_iff]
          exact hlisted
        have hnone : (queried w.server (abort w p listed).link.calls).map Prod.fst
            = if (abort w p listed).isFailed then none else endRequest p := by
          rw [habort, hfailed, if_pos rfl]
          exact hqueried
        exact .of_disclosed (h.of_eq habort hprinted) hwritten hnone
      | false =>
        have hendless : endRequest p = none := (hreported e rfl).resolve_left fun h => by
          rw [hclass] at h
          cases h
        rw [recover_of_fault rfl hclass]
        refine .of_disclosed h hwritten ?_
        rw [hendless, ite_self]
        exact hqueried
    · have hsome : (queried w.server s.link.calls).map Prod.fst
          = if s.isFailed then none else endRequest p := by
        rw [State.isFailed, show s.failures = [] from hunfailed]
        exact hqueried
      exact .of_disclosed h hwritten hsome

/-- **Closing the connection prints nothing**, and commits nothing. -/
theorem closing_faithful (hsimulated : p.simulated = false)
    {res : List (Except Error (Option Statement))} {r : Ending} (h : Faithful w p res r.2) :
    Faithful w p res (closing w p r).2 := by
  have hplainly := r.2.connection.close_plainly w.server
  obtain ⟨hclosed, _⟩ := closing_eq (w := w) hsimulated r
  have hprinted : (closing w p r).2.printed = r.2.printed :=
    congrArg Ledger.printed (ledger_closing r)
  have hfailures : (closing w p r).2.failures = r.2.failures :=
    congrArg Ledger.failures (ledger_closing r)
  have hlink : (closing w p r).2.link = (r.2.connection.close w.server).2.link := by
    rw [hclosed]
    rfl
  generalize (closing w p r).2 = s at hprinted hfailures hlink
  have hcommitted : committed w.server s.connection.calls
      = committed w.server r.2.connection.calls := by
    change committed w.server s.link.calls = _
    rw [hlink]
    exact hplainly.committed
  refine ⟨fun huncommitted => hprinted.trans (h.withheld (hcommitted.symm.trans huncommitted)),
    fun hsettled => ?_⟩
  obtain ⟨written, hdisclosed, hwritten, hqueried⟩ :=
    h.disclosed (hcommitted.symm.trans hsettled)
  obtain ⟨hstill, hsame⟩ := hdisclosed.plainly (hlink ▸ hplainly) hprinted
  refine ⟨written, hstill, hwritten, ?_⟩
  rw [hsame, State.isFailed, hfailures]
  exact hqueried

/-- **Only what was committed is printed, and all of it.** A run that writes in a transaction and
    prints answers as JSON prints nothing unless the transaction is committed. Then it has sent the
    statements of its lines in their order, and it prints the rows of each, and behind them those of
    the query at the end, if there is one that can be logged and it ends well. -/
theorem output_of_commit (w : Surroundings) (p : Plan) (template : Text)
    (lines : Option (List Text)) (hjson : p.output = .json) (htransactional : p.transactional = true)
    (hsimulated : p.simulated = false) :
    let s := (run w p template lines).2
    let calls := s.connection.calls
    (committed w.server calls = false → s.output = []) ∧
    (committed w.server calls = true → ∃ written : List (Request × List Row),
      replies w.server calls = written.map (fun d => (d.1, .ok d.2)) ∧
      written.map Prod.fst = statements (results w p template lines) ∧
      s.output = (written ++ (queried w.server calls).toList).flatMap
        (fun d => asLine (answerLine d.2)) ∧
      (queried w.server calls).map Prod.fst = if s.isFailed then none else endRequest p) := by
  suffices hfaithful :
      Faithful w p (results w p template lines) (run w p template lines).2 by
    generalize (run w p template lines).2 = s at hfaithful
    refine ⟨fun huncommitted => ?_, fun hcommitted => ?_⟩
    · rw [State.output, hfaithful.withheld huncommitted]
      rfl
    · obtain ⟨written, hdisclosed, hwritten, hqueried⟩ := hfaithful.disclosed hcommitted
      refine ⟨written, hdisclosed.replied, hwritten, ?_, hqueried⟩
      rw [State.output, hdisclosed.printed, List.reverse_reverse, List.flatMap_map]
      rfl
  unfold run
  rw [hsimulated]
  dsimp only
  cases p.checkVerbosity with
  | error e => exact ⟨fun _ => rfl, fun hcommitted => absurd hcommitted Bool.false_ne_true⟩
  | ok _ =>
    dsimp only
    generalize hs : ((State.start p.address).noteIf false .info _).noteIf (p.isAbove 0) .debug _ = s
    have halike : Alike (.start p.address) s := by
      rw [← hs]
      exact (Alike.noted ..).trans (Alike.noted ..)
    exact closing_faithful hsimulated (recover_faithful
      (body_printing hjson htransactional hsimulated template lines halike))

/-- Two lines and a query at the end are three answers. Where the commit is refused, none of them is
    printed. -/
theorem output_of_commit_inquiring :
    let p : Plan := { inquiring with output := .json }
    let lines : Option (List Text) := some ["a\n", "b\n"]
    let s := (run obliging p "\x7b1\x7d" lines).2
    (∃ answers : List (Request × List Row), answers.length = 3 ∧
      s.output = answers.flatMap fun d => asLine (answerLine d.2)) ∧
    (run (refusing Call.isCommit) p "\x7b1\x7d" lines).2.output = [] := by
  intro p lines s
  obtain ⟨_, hcommitted⟩ := output_of_commit obliging p "\x7b1\x7d" lines rfl rfl rfl
  obtain ⟨hwithheld, _⟩ := output_of_commit (refusing Call.isCommit) p "\x7b1\x7d" lines rfl rfl rfl
  obtain ⟨written, _, hwritten, houtput, _⟩ := hcommitted (by decide +kernel)
  refine ⟨⟨_, ?_, houtput⟩, hwithheld (by decide +kernel)⟩
  have htwo : (written.map Prod.fst).length = 2 := by
    rw [hwritten]
    decide +kernel
  have hone : (queried obliging.server s.connection.calls).toList.length = 1 := by decide +kernel
  rw [List.length_map] at htwo
  rw [List.length_append, htwo, hone]

end GraphFeed.Run
