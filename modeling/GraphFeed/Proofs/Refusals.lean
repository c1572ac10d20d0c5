import GraphFeed.Proofs.Handles

/-!
# Refused calls

What a history of calls tells about the driver and the session of a run: which calls were refused
(`refusals`), which drivers were opened (`drivers`), and which session was opened first
(`firstSession`), which is the one that a run holds.

* `Connecting`: all that connecting can come to where nothing has been sent before, and
  `connect_connecting`. If a call is refused, the driver is closed, which may be refused as well;
* `Sends`, `Works`: calls in between leave the driver and the session that are held;
* `Contains`: an operation that works so and tells by a reported failure that it was refused.
  `run_contains`, `commit_contains`, `execute_contains` and `rollback_works`: so it is with all
  operations of a connection that has a driver and a session (`Held`);
* `close_closing`: the session is closed first, and then the driver if that was not refused.
-/

namespace GraphFeed.Graph

/-! ## 1. What a history tells -/

namespace Call

def isOpenDriver : Call → Bool
  | openDriver .. => true
  | _ => false

def isOpenSession : Call → Bool
  | openSession .. => true
  | _ => false

/-- The call closes a driver. -/
def closes (driver : Handle) : Call → Bool
  | closeDriver d => d == driver
  | _ => false

/-- The call belongs to the work of a run that has a session: it begins no transaction, and closes
    neither the session nor its driver. -/
def isWork (own : Handle) : Call → Bool
  | run .. | runAlone .. | commit _ | rollback _ | openSession .. => true
  | closeSession session => session != own
  | _ => false

end Call

section

variable (server : Server)

/-- The calls that were refused, the latest first. -/
def refusals : List Call → List Call
  | [] => []
  | call :: earlier =>
    if accepts server earlier call then refusals earlier else call :: refusals earlier

/-- The drivers that were opened. -/
def drivers : List Call → List Handle
  | [] => []
  | call :: earlier =>
    if call.isOpenDriver && accepts server earlier call then earlier.length :: drivers earlier
    else drivers earlier

/-- The session that was opened first. -/
def firstSession : List Call → Option Handle
  | [] => none
  | call :: earlier => (firstSession earlier).or
    (if call.isOpenSession && accepts server earlier call then some earlier.length else none)

end

variable {server : Server} {call : Call} {earlier calls more : List Call}

theorem refusals_of_accepted (h : accepts server earlier call = true) :
    refusals server (call :: earlier) = refusals server earlier := if_pos h

theorem refusals_of_refused (h : accepts server earlier call = false) :
    refusals server (call :: earlier) = call :: refusals server earlier :=
  if_neg (ne_true_of_eq_false h)

theorem mem_refusals_append (h : call ∈ refusals server (more ++ calls)) :
    call ∈ more ∨ call ∈ refusals server calls := by
  induction more with
  | nil => exact .inr h
  | cons c more ih =>
    rw [List.cons_append, refusals] at h
    split at h
    · exact (ih h).imp_left (List.mem_cons_of_mem c)
    · rcases List.mem_cons.mp h with rfl | h
      · exact .inl List.mem_cons_self
      · exact (ih h).imp_left (List.mem_cons_of_mem c)

theorem refusals_subset_append (more : List Call) (h : call ∈ refusals server calls) :
    call ∈ refusals server (more ++ calls) := by
  induction more with
  | nil => exact h
  | cons c more ih =>
    rw [List.cons_append, refusals]
    split
    · exact ih
    · exact List.mem_cons_of_mem c ih

theorem firstSession_cons (h : call.isOpenSession = false) (calls : List Call) :
    firstSession server (call :: calls) = firstSession server calls := by
  rw [firstSession, h, Bool.false_and, if_neg Bool.false_ne_true, Option.or_none]

theorem firstSession_append {session : Handle} (more : List Call)
    (h : firstSession server calls = some session) :
    firstSession server (more ++ calls) = some session := by
  induction more with
  | nil => exact h
  | cons c more ih => rw [List.cons_append, firstSession, ih]; rfl

/-! ## 2. Connecting -/

/-- The call by which a driver is opened. -/
def opening (a : Address) : Call :=
  .openDriver a.uri a.user (Connection.credentials a.password)

/-- What was sent when a driver could not be used: it was opened, and it could not be checked, or no
    session of it could be opened. -/
inductive Unusable (server : Server) (a : Address) : List Call → Prop
  | unchecked (hopen : accepts server [] (opening a) = true)
      (hcheck : accepts server [opening a] (.verify 0) = false) :
      Unusable server a [.verify 0, opening a]
  | sessionless (hopen : accepts server [] (opening a) = true)
      (hcheck : accepts server [opening a] (.verify 0) = true)
      (hsession : accepts server [.verify 0, opening a] (.openSession 0 a.database) = false) :
      Unusable server a [.openSession 0 a.database, .verify 0, opening a]

/-- The calls of a connection that was opened. -/
def connectedCalls (a : Address) : List Call :=
  [.openSession 0 a.database, .verify 0, opening a]

/-- They were all accepted. -/
structure Connected (server : Server) (a : Address) : Prop where
  driver : accepts server [] (opening a) = true
  check : accepts server [opening a] (.verify 0) = true
  session : accepts server [.verify 0, opening a] (.openSession 0 a.database) = true

/-- **What connecting comes to** where nothing has been sent before: how it ends, the driver that is
    held, and the link. -/
inductive Connecting (server : Server) (a : Address) :
    Except Error Unit → Option Handle → Link → Prop
  /-- There is no driver. -/
  | driverless {e : Error} (he : e.isReported = true)
      (hrefuse : accepts server [] (opening a) = false) :
      Connecting server a (.error e) none ⟨none, none, [opening a]⟩
  /-- The driver could not be used, and was closed. -/
  | givenUp {e : Error} {tried : List Call} (he : e.isReported = true)
      (htried : Unusable server a tried)
      (haccept : accepts server tried (.closeDriver 0) = true) :
      Connecting server a (.error e) none ⟨none, none, .closeDriver 0 :: tried⟩
  /-- The driver could be neither used nor closed. -/
  | stuck {e : Error} {tried : List Call} (he : e.isReported = false)
      (htried : Unusable server a tried)
      (hrefuse : accepts server tried (.closeDriver 0) = false) :
      Connecting server a (.error e) (some 0) ⟨none, none, .closeDriver 0 :: tried⟩
  | connected (h : Connected server a) :
      Connecting server a (.ok ()) (some 0) ⟨some 2, none, connectedCalls a⟩

section Stages

variable {c : Connection}

/-- Giving up a driver that could not be used. -/
theorem giveUp_connecting (htried : Unusable server c.address c.calls) (hdriver : c.driver = some 0)
    (hsession : c.session = none) (htransaction : c.transaction = none) (message : Text) :
    Connecting server c.address (c.giveUp server message).1 (c.giveUp server message).2.driver
      (c.giveUp server message).2.link := by
  unfold Connection.giveUp Connection.close Connection.closeDriver
  rw [hsession]
  dsimp only
  rw [hdriver]
  dsimp only [Connection.send]
  cases ha : server c.calls (.closeDriver 0) with
  | error reason =>
    simp only [Connection.link, hsession, htransaction, hdriver]
    exact .stuck rfl htried (accepts_of_error ha)
  | ok rows =>
    simp only [Connection.link, hsession, htransaction]
    exact .givenUp rfl htried (accepts_of_ok ha)

/-- Opening a session of a driver that was checked. -/
theorem openSession_connecting (hopen : accepts server [] (opening c.address) = true)
    (hcheck : accepts server [opening c.address] (.verify 0) = true)
    (hcalls : c.calls = [.verify 0, opening c.address]) (hdriver : c.driver = some 0)
    (hsession : c.session = none) (htransaction : c.transaction = none) :
    Connecting server c.address (c.openSession server 0).1 (c.openSession server 0).2.driver
      (c.openSession server 0).2.link := by
  unfold Connection.openSession
  simp only [Connection.send, Connection.nextHandle, hcalls]
  cases ha : server [.verify 0, opening c.address] (.openSession 0 c.address.database) with
  | error message =>
    let next : Connection :=
      { c with calls := [.openSession 0 c.address.database, .verify 0, opening c.address] }
    have htried : Unusable server next.address next.calls :=
      .sessionless hopen hcheck (accepts_of_error ha)
    exact giveUp_connecting htried hdriver hsession htransaction message
  | ok rows =>
    dsimp only [Connection.note, Connection.link]
    rw [hdriver, htransaction]
    exact .connected ⟨hopen, hcheck, accepts_of_ok ha⟩

/-- Checking a driver that was opened. -/
theorem checkDriver_connecting (hopen : accepts server [] (opening c.address) = true)
    (hcalls : c.calls = [opening c.address]) (hdriver : c.driver = some 0)
    (hsession : c.session = none) (htransaction : c.transaction = none) :
    Connecting server c.address (c.checkDriver server 0).1 (c.checkDriver server 0).2.driver
      (c.checkDriver server 0).2.link := by
  let next : Connection := { c with calls := [.verify 0, opening c.address] }
  unfold Connection.checkDriver
  simp only [Connection.send, hcalls]
  cases ha : server [opening c.address] (.verify 0) with
  | error message =>
    have htried : Unusable server next.address next.calls := .unchecked hopen (accepts_of_error ha)
    exact giveUp_connecting htried hdriver hsession htransaction message
  | ok rows =>
    exact openSession_connecting (c := next) hopen (accepts_of_ok ha) rfl hdriver hsession htransaction

/-- **Connecting comes to one of these.** -/
theorem connect_connecting (hcalls : c.calls = []) (hdriver : c.driver = none)
    (hsession : c.session = none) (htransaction : c.transaction = none) :
    Connecting server c.address (c.connect server).1 (c.connect server).2.driver
      (c.connect server).2.link := by
  let noted := c.note .debug ("Connecting to Neo4j @ " ++ c.address.uri.shown)
  let next : Connection := { noted with driver := some 0, calls := [opening c.address] }
  unfold Connection.connect
  simp only [Connection.send, Connection.note, Connection.nextHandle, hcalls, List.length_nil]
  cases ha : server [] (opening c.address) with
  | error message =>
    rw [opening] at ha
    simp only [ha, Connection.giveUp, Connection.close, Connection.closeDriver, hsession, hdriver,
      Connection.link, htransaction]
    exact .driverless rfl (accepts_of_error ha)
  | ok rows =>
    have hnext := checkDriver_connecting (c := next) (accepts_of_ok ha) rfl rfl hsession htransaction
    rw [opening] at ha
    simp only [ha]
    exact hnext

end Stages

/-! ## 3. Work on a connection -/

/-- The connection holds a driver, and a session that was opened before. -/
structure Held (own : Handle) (c : Connection) : Prop where
  driver : c.driver.isSome = true
  session : c.session = some own
  earlier : own < c.calls.length

/-- **The calls in between pass a test**, and the driver and the session that are held stay. -/
structure Sends (test : Call → Bool) (c c' : Connection) : Prop where
  driver : c'.driver = c.driver
  session : c'.session = c.session
  calls : ∃ more : List Call, (∀ call ∈ more, test call = true) ∧ c'.calls = more ++ c.calls

/-- The calls in between are work. -/
abbrev Works (own : Handle) : Connection → Connection → Prop := Sends (Call.isWork own)

variable {own : Handle} {test test' : Call → Bool} {c c' c'' : Connection}

namespace Sends

theorem of_eq (hdriver : c'.driver = c.driver) (hlink : c'.link = c.link) : Sends test c c' :=
  ⟨hdriver, congrArg Link.session hlink, [], nofun, congrArg Link.calls hlink⟩

theorem refl (c : Connection) : Sends test c c := .of_eq rfl rfl

theorem trans (h : Sends test c c') (h' : Sends test c' c'') : Sends test c c'' := by
  obtain ⟨more, hmore, hcalls⟩ := h.calls
  obtain ⟨more', hmore', hcalls'⟩ := h'.calls
  exact ⟨h'.driver.trans h.driver, h'.session.trans h.session, more' ++ more,
    List.forall_mem_append.mpr ⟨hmore', hmore⟩, by rw [hcalls', hcalls, List.append_assoc]⟩

theorem mono (h : Sends test c c') (hle : ∀ call, test call = true → test' call = true) :
    Sends test' c c' := by
  obtain ⟨more, hmore, hcalls⟩ := h.calls
  exact ⟨h.driver, h.session, more, fun call hc => hle call (hmore call hc), hcalls⟩

/-- One call. -/
theorem of_call (hdriver : c'.driver = c.driver) (hsession : c'.session = c.session) {call : Call}
    (hcalls : c'.calls = call :: c.calls) (hcall : test call = true) : Sends test c c' :=
  ⟨hdriver, hsession, [call], List.forall_mem_singleton.mpr hcall, hcalls⟩

theorem held (h : Sends test c c') (hheld : Held own c) : Held own c' := by
  obtain ⟨more, _, hcalls⟩ := h.calls
  refine ⟨by rw [h.driver]; exact hheld.driver, h.session.trans hheld.session, ?_⟩
  rw [hcalls, List.length_append]
  exact Nat.lt_of_lt_of_le hheld.earlier (Nat.le_add_left ..)

/-- What is refused in between passes the test. -/
theorem refused (h : Sends test c c') {call : Call} (hc : call ∈ refusals server c'.calls) :
    test call = true ∨ call ∈ refusals server c.calls := by
  obtain ⟨more, hmore, hcalls⟩ := h.calls
  rw [hcalls] at hc
  exact (mem_refusals_append hc).imp_left (hmore call)

end Sends

/-- **An operation that is contained**: it works, a failure of it is one that is reported, and it
    succeeds only if none of its calls was refused. -/
structure Contains {α : Type} (server : Server) (own : Handle) (c : Connection)
    (r : Except Error α × Connection) : Prop where
  works : Works own c r.2
  reported : ∀ e, r.1 = .error e → e.isReported = true
  told : ∀ a, r.1 = .ok a → refusals server r.2.calls = refusals server c.calls

section Operations

variable (hheld : Held own c)

include hheld

theorem Held.ensureSession : c.ensureSession server = (.ok (), c) :=
  c.ensureSession_of_session hheld.session

/-- A transaction is begun by one call. That it is refused is a fault. -/
theorem begin_sends : Sends Call.isBegin c (c.begin server).2 ∧
    (((c.begin server).1 = .ok () ∧
        refusals server (c.begin server).2.calls = refusals server c.calls) ∨
      (∃ e, e.isReported = false ∧ (c.begin server).1 = .error e) ∧
        .begin own ∈ refusals server (c.begin server).2.calls) := by
  unfold Connection.begin
  rw [hheld.ensureSession]
  dsimp only
  rw [hheld.session]
  dsimp only [Connection.send]
  cases ha : server c.calls (.begin own) with
  | error message =>
    refine ⟨.of_call rfl rfl rfl rfl, .inr ⟨⟨_, rfl, rfl⟩, ?_⟩⟩
    dsimp only
    rw [refusals_of_refused (accepts_of_error ha)]
    exact List.mem_cons_self
  | ok rows =>
    exact ⟨.of_call rfl rfl rfl rfl, .inl ⟨rfl, refusals_of_accepted (accepts_of_ok ha)⟩⟩

/-- Running a statement is contained. -/
theorem run_contains (query : Value) (parameters : Parameters) :
    Contains server own c (c.run server query parameters) := by
  obtain ⟨call, hcall, hwork⟩ : ∃ call, c.statementCall? query parameters = some call ∧
      call.isWork own = true := by
    unfold Connection.statementCall?
    rw [hheld.session]
    cases c.transaction <;> exact ⟨_, rfl, rfl⟩
  unfold Connection.run
  rw [hheld.ensureSession]
  dsimp only
  rw [hcall]
  dsimp only [Connection.send]
  cases ha : server c.calls call with
  | error message => exact ⟨.of_call rfl rfl rfl hwork, fun e he => by cases he; rfl, nofun⟩
  | ok rows =>
    exact ⟨.of_call rfl rfl rfl hwork, nofun, fun _ _ => refusals_of_accepted (accepts_of_ok ha)⟩

omit hheld in
/-- So is committing. -/
theorem commit_contains : Contains server own c (c.commit server) := by
  unfold Connection.commit
  cases c.transaction with
  | none => exact ⟨.refl c, nofun, fun _ _ => rfl⟩
  | some t =>
    dsimp only [Connection.send]
    cases ha : server c.calls (.commit t) with
    | error message => exact ⟨.of_call rfl rfl rfl rfl, fun e he => by cases he; rfl, nofun⟩
    | ok rows =>
      exact ⟨.of_call rfl rfl rfl rfl, nofun, fun _ _ => refusals_of_accepted (accepts_of_ok ha)⟩

omit hheld in
/-- Rolling back works, but does not tell whether it was refused. -/
theorem rollback_works : Works own c (c.rollback server) := by
  unfold Connection.rollback
  cases c.transaction with
  | none => exact .refl c
  | some t =>
    dsimp only [Connection.send]
    cases server c.calls (.rollback t) <;> exact .of_call rfl rfl rfl rfl

theorem runAlone_contains (driver : Handle) (query : Value) (parameters : Parameters) :
    Contains server own c (c.runAlone server driver query parameters) := by
  let lent := c.calls.length
  let opened : List Call := .openSession driver c.address.database :: c.calls
  let asked : List Call := .runAlone lent query parameters :: opened
  -- the session that is lent is opened after the one that is held
  have hother : (lent != own) = true := bne_iff_ne.mpr (Nat.ne_of_gt hheld.earlier)
  have hworks : ∀ log, Works own c { c with calls := .closeSession lent :: asked, log := log } :=
    fun log => ⟨rfl, rfl, [.closeSession lent, .runAlone lent query parameters,
      .openSession driver c.address.database], by simp [Call.isWork, hother], rfl⟩
  unfold Connection.runAlone
  dsimp only [Connection.send, Connection.nextHandle, Connection.refusedStatement]
  cases hopen : server c.calls (.openSession driver c.address.database) with
  | error message => exact ⟨.of_call rfl rfl rfl rfl, fun e he => by cases he; rfl, nofun⟩
  | ok _ =>
    dsimp only
    cases hclose : server asked (.closeSession lent) with
    | error message => exact ⟨hworks _, fun e he => by cases he; rfl, nofun⟩
    | ok _ =>
      cases hrun : server opened (.runAlone lent query parameters) with
      | error message => exact ⟨hworks _, fun e he => by cases he; rfl, nofun⟩
      | ok rows =>
        refine ⟨hworks _, nofun, fun _ _ => ?_⟩
        calc refusals server (.closeSession lent :: asked)
            = refusals server asked := refusals_of_accepted (accepts_of_ok hclose)
          _ = refusals server opened := refusals_of_accepted (accepts_of_ok hrun)
          _ = refusals server c.calls := refusals_of_accepted (accepts_of_ok hopen)

/-- A query of its own is contained, although a session is opened and closed for it. -/
theorem execute_contains (query : Value) (parameters : Parameters) :
    Contains server own c (c.execute server query parameters) := by
  obtain ⟨driver, hdriver⟩ := Option.isSome_iff_exists.mp hheld.driver
  have hexecute : c.execute server query parameters = c.runAlone server driver query parameters := by
    unfold Connection.execute Connection.ensureDriver
    simp only [hdriver, Option.isSome_some, if_true]
  rw [hexecute]
  exact runAlone_contains hheld driver query parameters

/-- How closing can end. -/
inductive Closing (server : Server) (own driver : Handle) (calls : List Call) :
    Except Error Unit → List Call → Prop
  /-- The session could not be closed, and the driver is left as it is. -/
  | sessionLeft {e : Error} (hrefuse : accepts server calls (.closeSession own) = false) :
      Closing server own driver calls (.error e) (.closeSession own :: calls)
  | driverLeft {e : Error} (haccept : accepts server calls (.closeSession own) = true)
      (hrefuse : accepts server (.closeSession own :: calls) (.closeDriver driver) = false) :
      Closing server own driver calls (.error e) (.closeDriver driver :: .closeSession own :: calls)
  | closed (haccept : accepts server calls (.closeSession own) = true)
      (haccept' : accepts server (.closeSession own :: calls) (.closeDriver driver) = true) :
      Closing server own driver calls (.ok ()) (.closeDriver driver :: .closeSession own :: calls)

/-- **The session is closed first, and then the driver** if that was not refused. -/
theorem close_closing (server : Server) {driver : Handle} (hdriver : c.driver = some driver) :
    Closing server own driver c.calls (c.close server).1 (c.close server).2.calls := by
  unfold Connection.close Connection.closeDriver
  rw [hheld.session]
  dsimp only [Connection.send]
  cases ha : server c.calls (.closeSession own) with
  | error message => exact .sessionLeft (accepts_of_error ha)
  | ok _ =>
    dsimp only
    rw [hdriver]
    dsimp only
    cases hb : server (.closeSession own :: c.calls) (.closeDriver driver) with
    | error message => exact .driverLeft (accepts_of_ok ha) (accepts_of_error hb)
    | ok _ => exact .closed (accepts_of_ok ha) (accepts_of_ok hb)

end Operations

namespace Closing

variable {driver : Handle} {calls calls' : List Call} {closed : Except Error Unit}
  (h : Closing server own driver calls closed calls')

include h

/-- Closing sends further calls. -/
theorem append : ∃ late, calls' = late ++ calls := by
  cases h with
  | sessionLeft => exact ⟨[_], rfl⟩
  | driverLeft => exact ⟨[_, _], rfl⟩
  | closed => exact ⟨[_, _], rfl⟩

/-- If it ends well, none of them was refused. -/
theorem refusals_of_ok (hok : closed = .ok ()) :
    refusals server calls' = refusals server calls := by
  cases h with
  | sessionLeft => cases hok
  | driverLeft => cases hok
  | closed haccept haccept' => rw [refusals_of_accepted haccept', refusals_of_accepted haccept]

end Closing

end GraphFeed.Graph
