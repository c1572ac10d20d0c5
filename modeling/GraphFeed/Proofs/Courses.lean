import GraphFeed.Proofs.Containment

/-!
# Courses of a run

A run that does not simulate takes one of four courses (`Course`, `run_course`): it does not start, it
is not connected, it is stuck with a driver that it can neither use nor close, or it is connected,
does its work and closes the connection. What comes of calls that the database refuses follows from
the course.

* `Served`: what a run comes to that is connected, before it closes the connection;
* `refusals_contained`: **a run returns just where no call that is refused begins the transaction,
  closes a driver or closes the session of the run**, its lines can be fed and its verbosity can be
  used. If it returns and any call was refused, it has failed;
* `drivers_closed_iff`: **every driver is closed by one call just where the session of the run is
  closed**, or there is none and the driver is closed at the first attempt.

`begin_uncontained` and `driver_left_open` are runs where a single call is refused.
-/

namespace GraphFeed.Run

open GraphFeed.Graph

variable {w : Surroundings} {p : Plan} {own : Handle} {s : State} {template : Text}

/-! ## 1. What a connected run does -/

/-- The transaction is begun, if there is to be one. -/
def beginning (w : Surroundings) (p : Plan) (s : State) : Ending :=
  if p.transactional then s.onConnection fun c => c.begin w.server else .well s

/-- What a run does once it is connected, before reported failures are listed. -/
def serve (w : Surroundings) (p : Plan) (template : Text) (lines : Option (List Text)) (s : State) :
    Ending :=
  (beginning w p s).andThen fun s => (feed w p template lines s).andThen (settle w p)

/-- A run connects and serves. -/
theorem body_eq (hsimulated : p.simulated = false) (template : Text) (lines : Option (List Text))
    (s : State) : body w p template lines s
      = ((s.noteIf (p.isAbove 0) .debug ("Connecting to Neo4j @ " ++ s.connection.address.uri.shown)
          ).onConnection fun c => c.connect w.server).andThen (serve w p template lines) := by
  unfold body openGraph
  simp only [hsimulated, Bool.false_eq_true, if_false]
  exact Ending.andThen_assoc ..

theorem openGraph_eq (hsimulated : p.simulated = false) (s : State) : openGraph w p s
    = ((s.noteIf (p.isAbove 0) .debug ("Connecting to Neo4j @ " ++ s.connection.address.uri.shown)
        ).onConnection fun c => c.connect w.server).andThen (beginning w p) := by
  unfold openGraph
  simp only [hsimulated, Bool.false_eq_true, if_false]
  rfl

/-- How beginning can end. -/
theorem beginning_cases (hheld : Held own s.connection) :
    Sends Call.isBegin s.connection (beginning w p s).2.connection ∧
      (((beginning w p s).1 = .ok () ∧
          refusals w.server (beginning w p s).2.connection.calls
            = refusals w.server s.connection.calls) ∨
        (∃ e, e.isReported = false ∧ (beginning w p s).1 = .error e) ∧
          .begin own ∈ refusals w.server (beginning w p s).2.connection.calls) := by
  unfold beginning
  split
  · exact begin_sends hheld
  · exact ⟨.refl _, .inl ⟨rfl, rfl⟩⟩

/-- The calls of a run between connecting and closing. -/
def isServed (own : Handle) (call : Call) : Bool := call.isBegin || call.isWork own

theorem isBegin_of_isWork {call : Call} (h : call.isWork own = true) : call.isBegin = false := by
  cases call <;> first | rfl | cases h

theorem isServed_of_isBegin (own : Handle) {call : Call} (h : call.isBegin = true) :
    isServed own call = true := by
  rw [isServed, h, Bool.true_or]

theorem isServed_of_isWork {call : Call} (h : call.isWork own = true) :
    isServed own call = true := by
  rw [isServed, h, Bool.or_true]

/-- **What a run comes to that was connected**, before the connection is closed. The session is the
    third call. -/
structure Served (w : Surroundings) (p : Plan) (template : Text) (lines : Option (List Text))
    (r : Ending) : Prop where
  connected : Connected w.server p.address
  calls : ∃ more : List Call, (∀ call ∈ more, isServed 2 call = true) ∧
    r.2.connection.calls = more ++ connectedCalls p.address
  begun : Opens w p ↔ ∀ call ∈ refusals w.server r.2.connection.calls, call.isBegin = false
  ends : r.1 = .ok () ↔ Opens w p ∧ canFeed p template lines = true ∧
    (canLogEndQuery p = true ∨ r.2.failures ≠ [])
  told : r.1 = .ok () → r.2.failures = [] → refusals w.server r.2.connection.calls = []

theorem refusals_connectedCalls {server : Server} {a : Address} (h : Connected server a) :
    refusals server (connectedCalls a) = [] := by
  rw [connectedCalls, refusals_of_accepted h.session, refusals_of_accepted h.check,
    refusals_of_accepted h.driver]
  rfl

/-- Whoever is connected holds a driver and a session, and has sent three calls. -/
theorem connected_of_connecting {server : Server} {a : Address} {driver : Option Handle} {k : Link}
    (h : Connecting server a (.ok ()) driver k) :
    Connected server a ∧ driver = some 0 ∧ k = ⟨some 2, none, connectedCalls a⟩ := by
  cases h with
  | connected h => exact ⟨h, rfl, rfl⟩

/-- A run connects where nothing has been sent before. -/
theorem Alike.connecting (h : Alike (.start p.address) s) :
    let r := s.onConnection fun c => c.connect w.server
    Connecting w.server p.address r.1 r.2.connection.driver r.2.link := by
  obtain ⟨log, commands, rfl⟩ := h
  exact connect_connecting (c := (State.start p.address).connection.logged log) rfl rfl rfl rfl

/-- The third call has opened the first session. -/
theorem firstSession_connectedCalls {server : Server} {a : Address} (h : Connected server a) :
    firstSession server (connectedCalls a) = some 2 := by
  have hnone : firstSession server [.verify 0, opening a] = none := rfl
  rw [connectedCalls, firstSession, hnone]
  exact if_pos h.session

/-- **A run that is connected ends well if the transaction was begun and the lines can be fed**, and
    the query at the end can be logged if it comes to it. -/
theorem recover_served (hsimulated : p.simulated = false) (template : Text)
    (lines : Option (List Text)) (hheld : Held 2 s.connection)
    (hconnected : Connected w.server p.address)
    (hcalls : s.connection.calls = connectedCalls p.address)
    (hopens : Opens w p ↔ (beginning w p s).1 = .ok ()) :
    let r := recover w p (serve w p template lines s)
    Sends (isServed 2) s.connection r.2.connection ∧ Served w p template lines r := by
  dsimp only
  have hnone : refusals w.server s.connection.calls = [] := by
    rw [hcalls, refusals_connectedCalls hconnected]
  obtain ⟨hsends, ⟨hok, hsame⟩ | ⟨⟨e, hfault, he⟩, hmem⟩⟩ := beginning_cases (w := w) (p := p) hheld
  · obtain ⟨hworks, hends, htold⟩ :=
      recover_fed (w := w) hsimulated template lines (hsends.held hheld)
    have hserve : serve w p template lines s
        = (feed w p template lines (beginning w p s).2).andThen (settle w p) :=
      Ending.andThen_of_ok hok
    rw [hserve]
    rw [hnone] at hsame
    rw [hsame] at htold
    have hserved := (hsends.mono fun _ => isServed_of_isBegin 2).trans
      (hworks.mono fun _ => isServed_of_isWork)
    -- only work was sent since the transaction was begun, so no beginning was refused
    refine ⟨hserved, hconnected, hcalls ▸ hserved.calls, ⟨fun _ call hc => ?_, fun _ => ?_⟩,
      hends.trans ⟨fun hcan => ⟨hopens.mpr hok, hcan⟩, And.right⟩, htold⟩
    · refine isBegin_of_isWork ((hworks.refused hc).resolve_right ?_)
      rw [hsame]
      exact List.not_mem_nil
    · exact hopens.mpr hok
  · have hserve : serve w p template lines s = beginning w p s := Ending.andThen_of_error he
    rw [hserve, recover_of_fault he hfault]
    have hserved := hsends.mono fun _ => isServed_of_isBegin 2
    have hunopened : ¬Opens w p := fun h => by
      rw [he] at hopens
      exact nomatch hopens.mp h
    refine ⟨hserved, hconnected, hcalls ▸ hserved.calls, ?_, ?_, ?_⟩
    · exact ⟨fun h => absurd h hunopened, fun h => nomatch h _ hmem⟩
    · rw [he]
      exact ⟨nofun, fun h => absurd h.1 hunopened⟩
    · rw [he]
      exact nofun

namespace Served

variable {r : Ending} {lines : Option (List Text)} (h : Served w p template lines r)

include h

/-- Whatever was refused of it came behind the connecting. -/
theorem refused {call : Call} (hc : call ∈ refusals w.server r.2.connection.calls) :
    isServed 2 call = true := by
  obtain ⟨more, hmore, heq⟩ := h.calls
  rw [heq] at hc
  refine (mem_refusals_append hc).elim (hmore call) fun hc => ?_
  rw [refusals_connectedCalls h.connected] at hc
  cases hc

/-- The session that is opened first is the one that is held, also when the connection is closed. -/
theorem firstSession {closed : Except Error Unit} {calls : List Call}
    (hclosing : Closing w.server 2 0 r.2.connection.calls closed calls) :
    firstSession w.server calls = some 2 := by
  obtain ⟨more, _, heq⟩ := h.calls
  obtain ⟨late, hlate⟩ := hclosing.append
  rw [hlate, heq]
  exact firstSession_append late
    (firstSession_append more (firstSession_connectedCalls h.connected))

end Served

/-! ## 2. Courses -/

/-- **The courses that a run can take**: what it comes to, and what it sends. -/
inductive Course (w : Surroundings) (p : Plan) (template : Text) (lines : Option (List Text)) :
    Ending → Prop
  | unstarted {r : Ending} {e : Error} (hverbosity : p.checkVerbosity = .error e)
      (hend : r.1 = .error e) (hcalls : r.2.connection.calls = []) : Course w p template lines r
  /-- There is no connection, and nothing is left open. -/
  | unconnected {r : Ending} {e : Error} {k : Link} (hverbosity : p.checkVerbosity = .ok ())
      (hopens : ¬Opens w p) (hconnecting : Connecting w.server p.address (.error e) none k)
      (hend : r.1 = .ok ()) (hcalls : r.2.connection.calls = k.calls)
      (hfailures : r.2.failures ≠ []) : Course w p template lines r
  /-- A driver that could not be used could not be closed, and is closed once more. -/
  | stuck {r : Ending} {e : Error} {k : Link}
      (hconnecting : Connecting w.server p.address (.error e) (some 0) k) (hend : r.1 ≠ .ok ())
      (hcalls : r.2.connection.calls = .closeDriver 0 :: k.calls) : Course w p template lines r
  | served {r r' : Ending} {closed : Except Error Unit}
      (hverbosity : p.checkVerbosity = .ok ()) (hserved : Served w p template lines r')
      (hclosing : Closing w.server 2 0 r'.2.connection.calls closed r.2.connection.calls)
      (hend : r.1 = .ok () ↔ closed = .ok () ∧ r'.1 = .ok ())
      (hfailures : r.2.failures = r'.2.failures) : Course w p template lines r

/-- Closing at the end of a run. -/
theorem closing_eq (hsimulated : p.simulated = false) (r : Ending) :
    (closing w p r).2 = { r.2 with connection := (r.2.connection.close w.server).2 } ∧
      ((closing w p r).1 = .ok () ↔
        (r.2.connection.close w.server).1 = .ok () ∧ r.1 = .ok ()) := by
  unfold closing State.onConnection
  simp only [hsimulated, Bool.false_eq_true, if_false]
  rcases r.2.connection.close w.server with ⟨e | _, c⟩
  · exact ⟨rfl, nofun, fun h => nomatch h.1⟩
  · exact ⟨rfl, fun h => ⟨rfl, h⟩, fun h => h.2⟩

/-- Where there is nothing to close, closing ends well. -/
theorem close_of_closed (server : Server) {c : Connection} (hdriver : c.driver = none)
    (hsession : c.session = none) : c.close server = (.ok (), c) := by
  rw [Connection.close, hsession]
  dsimp only
  rw [Connection.closeDriver, hdriver]

/-- A driver without a session is closed by one call. -/
theorem close_of_driver {server : Server} {c : Connection} {driver : Handle}
    (hdriver : c.driver = some driver) (hsession : c.session = none) :
    (c.close server).2.calls = .closeDriver driver :: c.calls := by
  rw [Connection.close, hsession]
  dsimp only
  rw [Connection.closeDriver, hdriver]
  dsimp only [Connection.send]
  cases server c.calls (.closeDriver driver) <;> rfl

section

variable (hsimulated : p.simulated = false) {lines : Option (List Text)} {e : Error}

include hsimulated

/-- The course where there is no connection: the failure is listed, and there is nothing to close. -/
theorem course_unconnected (hverbosity : p.checkVerbosity = .ok ()) (hunopened : ¬Opens w p)
    (hconnecting : Connecting w.server p.address (.error e) none s.link)
    (hdriver : s.connection.driver = none) :
    Course w p template lines (closing w p (recover w p (.error e, s))) := by
  have hreported : e.isReported = true := by
    generalize s.link = k at hconnecting
    cases hconnecting <;> assumption
  obtain ⟨hsession, htransaction⟩ : s.link.session = none ∧ s.link.transaction = none := by
    generalize s.link = k at hconnecting
    cases hconnecting <;> exact ⟨rfl, rfl⟩
  obtain ⟨listed, hlistedDriver, hlistedLink, hlisted, hrecover⟩ :=
    recover_of_reported (w := w) (p := p) hreported s
  have haborted : (abort w p listed).link = listed.link :=
    abort_of_none (by rw [hlistedLink, htransaction])
  obtain ⟨hworks, hsame⟩ := abort_works (w := w) (p := p) 0 listed
  -- neither a transaction nor a session nor a driver is held, so nothing more is sent
  have hclose := close_of_closed w.server (c := (abort w p listed).connection)
    (by rw [hworks.driver, hlistedDriver, hdriver])
    (by rw [hworks.session, ← hsession, ← hlistedLink]; rfl)
  obtain ⟨hclosed, hend⟩ := closing_eq (w := w) hsimulated (.well (abort w p listed))
  rw [hrecover]
  refine .unconnected hverbosity hunopened hconnecting (hend.mpr ⟨?_, rfl⟩) ?_ ?_
  · exact congrArg Prod.fst hclose
  · rw [hclosed]
    dsimp only [Ending.well]
    rw [hclose, ← hlistedLink]
    exact congrArg Link.calls haborted
  · rw [hclosed]
    exact hsame ▸ hlisted

/-- The course where a driver is left that cannot be used: closing it is tried once more. -/
theorem course_stuck {driver : Handle}
    (hconnecting : Connecting w.server p.address (.error e) (some driver) s.link)
    (hdriver : s.connection.driver = some driver) :
    Course w p template lines (closing w p (recover w p (.error e, s))) := by
  obtain ⟨hfault, rfl, hsession⟩ : e.isReported = false ∧ driver = 0 ∧ s.link.session = none := by
    generalize s.link = k at hconnecting
    cases hconnecting
    exact ⟨by assumption, rfl, rfl⟩
  obtain ⟨hclosed, hend⟩ := closing_eq (w := w) hsimulated (.error e, s)
  rw [recover_of_fault rfl hfault]
  refine .stuck hconnecting (fun hok => nomatch (hend.mp hok).2) ?_
  rw [hclosed]
  exact close_of_driver hdriver hsession

/-- The course where the run is connected. -/
theorem course_served (hverbosity : p.checkVerbosity = .ok ())
    (hopens : Opens w p ↔ (beginning w p s).1 = .ok ()) {driver : Option Handle}
    (hconnecting : Connecting w.server p.address (.ok ()) driver s.link)
    (hdriver : s.connection.driver = driver) :
    Course w p template lines (closing w p (recover w p (serve w p template lines s))) := by
  obtain ⟨hconnected, rfl, hlink⟩ := connected_of_connecting hconnecting
  have hcalls : s.connection.calls = connectedCalls p.address := congrArg Link.calls hlink
  have hheld : Held 2 s.connection := by
    refine ⟨by rw [hdriver]; rfl, congrArg Link.session hlink, ?_⟩
    rw [hcalls]
    exact Nat.lt_succ_self 2
  obtain ⟨hsends, hserved⟩ :=
    recover_served hsimulated template lines hheld hconnected hcalls hopens
  generalize recover w p (serve w p template lines s) = r at hsends hserved
  obtain ⟨hclosed, hend⟩ := closing_eq (w := w) hsimulated r
  have hclosing := close_closing (hsends.held hheld) w.server (hsends.driver.trans hdriver)
  refine .served hverbosity hserved ?_ hend ?_
  · rw [hclosed]
    exact hclosing
  · rw [hclosed]

end

/-- What follows the connecting. -/
theorem course_of_connecting (hsimulated : p.simulated = false)
    (hverbosity : p.checkVerbosity = .ok ()) {lines : Option (List Text)}
    {result : Except Error Unit}
    (hopens : Opens w p ↔ (Ending.andThen (result, s) (beginning w p)).1 = .ok ())
    (hconnecting : Connecting w.server p.address result s.connection.driver s.link) :
    Course w p template lines
      (closing w p (recover w p (Ending.andThen (result, s) (serve w p template lines)))) := by
  cases result with
  | error e =>
    generalize hdriver : s.connection.driver = driver at hconnecting
    cases driver with
    | none =>
      exact course_unconnected hsimulated hverbosity (fun h => nomatch hopens.mp h) hconnecting hdriver
    | some driver => exact course_stuck hsimulated hconnecting hdriver
  | ok _ => exact course_served hsimulated hverbosity hopens hconnecting rfl

/-- **A run takes one of these courses.** -/
theorem run_course (hsimulated : p.simulated = false) (template : Text)
    (lines : Option (List Text)) : Course w p template lines (run w p template lines) := by
  unfold run
  rw [hsimulated]
  dsimp only
  cases hverbosity : p.checkVerbosity with
  | error e => exact .unstarted hverbosity rfl rfl
  | ok _ =>
    dsimp only
    generalize hs : ((State.start p.address).noteIf false .info _).noteIf (p.isAbove 0) .debug _ = s
    have halike : Alike (.start p.address) s := by
      rw [← hs]
      exact (Alike.noted ..).trans (Alike.noted ..)
    have hopens : Opens w p ↔ (openGraph w p s).1 = .ok () := by
      rw [halike.openGraph.1]
      exact ⟨fun h => h.connection, fun h => ⟨hverbosity, h⟩⟩
    rw [openGraph_eq hsimulated] at hopens
    rw [body_eq hsimulated]
    have hnoted := halike.trans (.noted s (p.isAbove 0) .debug
      ("Connecting to Neo4j @ " ++ s.connection.address.uri.shown))
    generalize s.noteIf (p.isAbove 0) .debug _ = noted at hnoted hopens ⊢
    have hconnecting := hnoted.connecting (w := w)
    dsimp only at hconnecting
    generalize (noted.onConnection fun c => c.connect w.server) = connected at hconnecting hopens ⊢
    obtain ⟨result, s'⟩ := connected
    exact course_of_connecting hsimulated hverbosity hopens hconnecting

end GraphFeed.Run

namespace GraphFeed.Graph

/-! ## 3. Calls that are refused -/

namespace Call

/-- A refusal of the call is contained in the result of a run with a session of its own, or none. -/
def isContained (own : Option Handle) : Call → Bool
  | begin _ | closeDriver _ => false
  | closeSession session => own != some session
  | _ => true

/-- A refusal of the call keeps the driver of a run from being closed by one call. -/
def obstructs (own : Option Handle) : Call → Bool
  | closeSession session => own == some session
  | closeDriver _ => own.isNone
  | _ => false

theorem isContained_of_isWork {own : Handle} {call : Call} (h : call.isWork own = true) :
    call.isContained (some own) = true := by
  cases call with
  | closeSession session =>
    exact bne_iff_ne.mpr fun heq => (bne_iff_ne.mp h) (Option.some.inj heq).symm
  | openDriver | verify | begin | closeDriver => cases h
  | _ => rfl

end Call

/-- What is refused of a driver that cannot be used is contained. -/
theorem Unusable.refused {server : Server} {a : Address} {tried : List Call}
    (h : Unusable server a tried) (own : Option Handle) {call : Call}
    (hc : call ∈ refusals server tried) :
    call.isContained own = true ∧ call.obstructs own = false := by
  cases h with
  | unchecked hopen hcheck =>
    rw [refusals_of_refused hcheck, refusals_of_accepted hopen] at hc
    rw [List.mem_singleton.mp hc]
    exact ⟨rfl, rfl⟩
  | sessionless hopen hcheck hsession =>
    rw [refusals_of_refused hsession, refusals_of_accepted hcheck, refusals_of_accepted hopen] at hc
    rw [List.mem_singleton.mp hc]
    exact ⟨rfl, rfl⟩

/-- So it is where nothing is left open. -/
theorem Connecting.refused {server : Server} {a : Address} {e : Error} {k : Link}
    (h : Connecting server a (.error e) none k) (own : Option Handle) {call : Call}
    (hc : call ∈ refusals server k.calls) :
    call.isContained own = true ∧ call.obstructs own = false := by
  cases h with
  | driverless _ hrefuse =>
    rw [refusals_of_refused hrefuse] at hc
    rw [List.mem_singleton.mp hc]
    exact ⟨rfl, rfl⟩
  | givenUp _ htried haccept =>
    rw [refusals_of_accepted haccept] at hc
    exact htried.refused own hc

/-- Closing ends well if no call is refused that is not contained. -/
theorem Closing.ok_of_contained {server : Server} {own driver : Handle} {calls calls' : List Call}
    {closed : Except Error Unit} (h : Closing server own driver calls closed calls')
    (hcontained : ∀ call ∈ refusals server calls', call.isContained (some own) = true) :
    closed = .ok () := by
  cases h with
  | sessionLeft hrefuse =>
    have hclose := hcontained (.closeSession own) (by
      rw [refusals_of_refused hrefuse]
      exact List.mem_cons_self)
    exact absurd rfl (bne_iff_ne.mp hclose)
  | driverLeft haccept hrefuse =>
    have hclose := hcontained (.closeDriver driver) (by
      rw [refusals_of_refused hrefuse]
      exact List.mem_cons_self)
    cases hclose
  | closed => rfl

end GraphFeed.Graph

namespace GraphFeed.Run

open GraphFeed.Graph

/-- What a connected run sends is contained, unless it begins a transaction. -/
theorem isContained_of_isServed {call : Call} (h : isServed own call = true)
    (hbegin : call.isBegin = false) : call.isContained (some own) = true := by
  rw [isServed, hbegin, Bool.false_or] at h
  exact Call.isContained_of_isWork h

/-- If no uncontained call is refused, the transaction was begun. -/
theorem isBegin_of_isContained {call : Call} (h : call.isContained (some own) = true) :
    call.isBegin = false := by
  cases call <;> first | rfl | cases h

/-- **A run returns just where no uncontained call is refused**, its verbosity can be used, its lines
    can be fed if it comes to them, and the query at the end can be logged unless it has failed before.
    If it returns and any call was refused, it has failed. -/
theorem refusals_contained (w : Surroundings) (p : Plan) (template : Text)
    (lines : Option (List Text)) (hsimulated : p.simulated = false) :
    let r := run w p template lines
    let refused := refusals w.server r.2.connection.calls
    (r.1 = .ok () ↔ p.checkVerbosity = .ok () ∧
      (Opens w p → canFeed p template lines = true ∧
        (canLogEndQuery p = true ∨ r.2.isFailed = true)) ∧
      ∀ call ∈ refused, call.isContained (firstSession w.server r.2.connection.calls) = true) ∧
    (r.1 = .ok () → refused ≠ [] → r.2.isFailed = true) := by
  have hcourse := run_course (w := w) hsimulated template lines
  dsimp only
  generalize run w p template lines = r at hcourse
  have hfailed : r.2.isFailed = true ↔ r.2.failures ≠ [] := by
    rw [State.isFailed, Bool.not_eq_true', List.isEmpty_eq_false_iff]
  rw [hfailed]
  cases hcourse with
  | unstarted hverbosity hend hcalls =>
    rw [hend, hverbosity]
    exact ⟨⟨nofun, fun h => nomatch h.1⟩, nofun⟩
  | unconnected hverbosity hopens hconnecting hend hcalls hfailures =>
    rw [hcalls]
    refine ⟨⟨fun _ => ⟨hverbosity, fun h => absurd h hopens, fun call hc =>
      (hconnecting.refused _ hc).1⟩, fun _ => hend⟩, fun _ _ => hfailures⟩
  | stuck hconnecting hend hcalls =>
    refine ⟨⟨fun hok => absurd hok hend, fun ⟨_, _, hcontained⟩ => ?_⟩, fun hok => absurd hok hend⟩
    have hclose : .closeDriver 0 ∈ refusals w.server r.2.connection.calls := by
      rw [hcalls]
      cases hconnecting with
      | stuck _ _ hrefuse =>
        refine refusals_subset_append [.closeDriver 0] ?_
        rw [refusals_of_refused hrefuse]
        exact List.mem_cons_self
    cases hcontained _ hclose
  | served hverbosity hserved hclosing hend hfailures =>
    rw [hserved.firstSession hclosing]
    refine ⟨⟨fun hok => ?_, fun ⟨_, hcan, hcontained⟩ => ?_⟩, fun hok hrefused => ?_⟩
    · obtain ⟨hclosed, hok'⟩ := hend.mp hok
      obtain ⟨hopens, hcan⟩ := hserved.ends.mp hok'
      refine ⟨hverbosity, fun _ => hfailures ▸ hcan, fun call hc => ?_⟩
      rw [hclosing.refusals_of_ok hclosed] at hc
      exact isContained_of_isServed (hserved.refused hc) (hserved.begun.mp hopens call hc)
    · obtain ⟨late, hlate⟩ := hclosing.append
      have hopens : Opens w p := hserved.begun.mpr fun call hc =>
        isBegin_of_isContained (hcontained call (hlate ▸ refusals_subset_append late hc))
      exact hend.mpr ⟨hclosing.ok_of_contained hcontained,
        hserved.ends.mpr ⟨hopens, hfailures ▸ hcan hopens⟩⟩
    · obtain ⟨hclosed, hok'⟩ := hend.mp hok
      rw [hclosing.refusals_of_ok hclosed] at hrefused
      exact fun hlisted => hrefused (hserved.told hok' (hfailures ▸ hlisted))

/-- A database that refuses the calls of a kind. -/
def refusing (kind : Call → Bool) : Surroundings :=
  { obliging with server := fun _ call => if kind call then .error "no" else .ok [] }

/-- A run whose commit is refused returns, and has failed. -/
theorem refusals_contained_commit :
    let r := run (refusing Call.isCommit) (inBatchesOf (.int 500)) "a" (some ["b"])
    r.1 = .ok () ∧ r.2.isFailed = true := by
  intro r
  obtain ⟨hreturns, hfailed⟩ :=
    refusals_contained (refusing Call.isCommit) (inBatchesOf (.int 500)) "a" (some ["b"]) rfl
  have hok := hreturns.mpr ⟨rfl, fun _ => ⟨by decide +kernel, .inl rfl⟩, by decide +kernel⟩
  exact ⟨hok, hfailed hok (by decide +kernel)⟩

/-- **A transaction that cannot be begun is not contained**: the run does not return. -/
theorem begin_uncontained :
    let r := run (refusing Call.isBegin) (inBatchesOf (.int 500)) "a" (some ["b"])
    r.1 = .error (.refused "no") ∧
      refusals (refusing Call.isBegin).server r.2.connection.calls = [.begin 2] := by
  intro r
  exact ⟨rfl, rfl⟩

end GraphFeed.Run

namespace GraphFeed.Graph

/-! ## 4. Drivers that are closed -/

theorem drivers_cons {server : Server} {call : Call} (h : call.isOpenDriver = false)
    (calls : List Call) : drivers server (call :: calls) = drivers server calls := by
  rw [drivers, h, Bool.false_and, if_neg Bool.false_ne_true]

/-- Calls that open no driver. -/
theorem drivers_append {server : Server} {more : List Call}
    (h : ∀ call ∈ more, call.isOpenDriver = false) (calls : List Call) :
    drivers server (more ++ calls) = drivers server calls := by
  induction more with
  | nil => rfl
  | cons call more ih =>
    obtain ⟨hcall, hmore⟩ := List.forall_mem_cons.mp h
    rw [List.cons_append, drivers_cons hcall, ih hmore]

/-- The driver that was opened is the one of a run. -/
theorem drivers_opening {server : Server} {a : Address}
    (h : accepts server [] (opening a) = true) : drivers server [opening a] = [0] := if_pos h

/-- What was tried with a driver neither opens another one nor closes it, and opens no session. -/
theorem Unusable.describes {server : Server} {a : Address} {tried : List Call}
    (h : Unusable server a tried) : drivers server tried = [0] ∧
      tried.countP (Call.closes 0) = 0 ∧ Graph.firstSession server tried = none := by
  cases h with
  | unchecked hopen hcheck => exact ⟨(drivers_cons rfl _).trans (drivers_opening hopen), rfl, rfl⟩
  | sessionless hopen hcheck hsession =>
    refine ⟨?_, rfl, ?_⟩
    · rw [drivers_cons rfl, drivers_cons rfl, drivers_opening hopen]
    · rw [Graph.firstSession, hsession]
      rfl

/-- The calls of a connected run open no driver and close none, and their refusals obstruct nothing. -/
theorem harmless_of_isServed {own : Handle} {call : Call} (h : Run.isServed own call = true) :
    call.isOpenDriver = false ∧ call.closes 0 = false ∧ call.obstructs (some own) = false := by
  cases call with
  | closeSession session =>
    have hother : session ≠ own := bne_iff_ne.mp h
    exact ⟨rfl, rfl, beq_eq_false_iff_ne.mpr fun heq => hother (Option.some.inj heq).symm⟩
  | openDriver | verify | closeDriver => cases h
  | _ => exact ⟨rfl, rfl, rfl⟩

end GraphFeed.Graph

namespace GraphFeed.Run

open GraphFeed.Graph

/-- A connected run has one driver, and has not closed it yet. -/
theorem Served.drivers {r : Ending} {lines : Option (List Text)}
    (h : Served w p template lines r) : drivers w.server r.2.connection.calls = [0] ∧
      r.2.connection.calls.countP (Call.closes 0) = 0 := by
  obtain ⟨more, hmore, heq⟩ := h.calls
  rw [heq]
  constructor
  · rw [drivers_append fun call hc => (harmless_of_isServed (hmore call hc)).1, connectedCalls,
      drivers_cons rfl, drivers_cons rfl, drivers_opening h.connected.driver]
  · rw [List.countP_append, List.countP_eq_zero.mpr fun call hc =>
      ne_true_of_eq_false (harmless_of_isServed (hmore call hc)).2.1]
    rfl

/-- It is closed by one call just where no call is refused that obstructs it. -/
theorem Served.closed_iff {r : Ending} {lines : Option (List Text)} {closed : Except Error Unit}
    {calls : List Call} (h : Served w p template lines r)
    (hclosing : Closing w.server 2 0 r.2.connection.calls closed calls) :
    (∀ driver ∈ Graph.drivers w.server calls, calls.countP (Call.closes driver) = 1) ↔
      ∀ call ∈ refusals w.server calls, call.obstructs (some 2) = false := by
  obtain ⟨hdrivers, hcount⟩ := h.drivers
  have hclear : ∀ call ∈ refusals w.server r.2.connection.calls, call.obstructs (some 2) = false :=
    fun call hc => (harmless_of_isServed (h.refused hc)).2.2
  cases hclosing with
  | sessionLeft hrefuse =>
    rw [drivers_cons rfl, hdrivers, List.forall_mem_singleton,
      List.countP_cons_of_neg Bool.false_ne_true, hcount, refusals_of_refused hrefuse]
    exact ⟨nofun, fun h => nomatch h _ List.mem_cons_self⟩
  | driverLeft haccept hrefuse =>
    rw [drivers_cons rfl, drivers_cons rfl, hdrivers, List.forall_mem_singleton,
      List.countP_cons_of_pos rfl, List.countP_cons_of_neg Bool.false_ne_true, hcount,
      refusals_of_refused hrefuse, refusals_of_accepted haccept]
    exact ⟨fun _ => List.forall_mem_cons.mpr ⟨rfl, hclear⟩, fun _ => rfl⟩
  | closed haccept haccept' =>
    rw [drivers_cons rfl, drivers_cons rfl, hdrivers, List.forall_mem_singleton,
      List.countP_cons_of_pos rfl, List.countP_cons_of_neg Bool.false_ne_true, hcount,
      refusals_of_accepted haccept', refusals_of_accepted haccept]
    exact ⟨fun _ => hclear, fun _ => rfl⟩

/-- **Every driver is closed by one call just where no call is refused that obstructs it.** -/
theorem drivers_closed_iff (w : Surroundings) (p : Plan) (template : Text)
    (lines : Option (List Text)) (hsimulated : p.simulated = false) :
    let calls := (run w p template lines).2.connection.calls
    (∀ driver ∈ drivers w.server calls, calls.countP (Call.closes driver) = 1) ↔
      ∀ call ∈ refusals w.server calls, call.obstructs (firstSession w.server calls) = false := by
  have hcourse := run_course (w := w) hsimulated template lines
  dsimp only
  generalize run w p template lines = r at hcourse
  cases hcourse with
  | unstarted hverbosity hend hcalls =>
    rw [hcalls]
    exact ⟨fun _ => nofun, fun _ => nofun⟩
  | unconnected hverbosity hopens hconnecting hend hcalls hfailures =>
    rw [hcalls]
    refine ⟨fun _ call hc => (hconnecting.refused _ hc).2, fun _ => ?_⟩
    cases hconnecting with
    | driverless _ hrefuse =>
      rw [drivers, hrefuse]
      exact nofun
    | givenUp _ htried haccept =>
      obtain ⟨hdrivers, hcount, _⟩ := htried.describes
      dsimp only
      rw [drivers_cons rfl, hdrivers, List.forall_mem_singleton, List.countP_cons_of_pos rfl, hcount]
  | stuck hconnecting hend hcalls =>
    cases hconnecting with
    | stuck _ htried hrefuse =>
      obtain ⟨hdrivers, hcount, hfirst⟩ := htried.describes
      rw [hcalls]
      dsimp only
      rw [drivers_cons rfl, drivers_cons rfl, hdrivers, List.forall_mem_singleton,
        List.countP_cons_of_pos rfl, List.countP_cons_of_pos rfl, hcount]
      -- the driver was closed twice, and in vain the first time, where no session had been opened
      refine ⟨nofun, fun hclear => ?_⟩
      have hclose := hclear (.closeDriver 0) (refusals_subset_append [.closeDriver 0] (by
        rw [refusals_of_refused hrefuse]
        exact List.mem_cons_self))
      rw [firstSession_cons rfl, firstSession_cons rfl, hfirst] at hclose
      cases hclose
  | served hverbosity hserved hclosing =>
    rw [hserved.firstSession hclosing]
    exact hserved.closed_iff hclosing

/-- Where the commit is refused, the driver is closed by one call. -/
theorem drivers_closed_commit :
    let r := run (refusing Call.isCommit) (inBatchesOf (.int 500)) "a" (some ["b"])
    let calls := r.2.connection.calls
    drivers (refusing Call.isCommit).server calls = [0] ∧ calls.countP (Call.closes 0) = 1 := by
  intro r calls
  have hdrivers : drivers (refusing Call.isCommit).server calls = [0] := by decide +kernel
  refine ⟨hdrivers, ?_⟩
  have hclosed :=
    drivers_closed_iff (refusing Call.isCommit) (inBatchesOf (.int 500)) "a" (some ["b"]) rfl
  refine hclosed.mpr (by decide +kernel) 0 ?_
  rw [hdrivers]
  exact List.mem_cons_self

/-- **Where the session cannot be closed, the driver is left open.** -/
theorem driver_left_open :
    let w := refusing fun call => match call with
      | .closeSession _ => true
      | _ => false
    let calls := (run w (inBatchesOf (.int 500)) "a" (some ["b"])).2.connection.calls
    drivers w.server calls = [0] ∧ calls.countP (Call.closes 0) = 0 := by
  decide +kernel

end GraphFeed.Run
