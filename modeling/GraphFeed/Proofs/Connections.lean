import GraphFeed.Proofs.Protocol

/-!
# What operations send

What an operation on a connection sends, and what the connection then holds. The log does not
matter here, so connections are looked at through their `link`: the session, the transaction and the
calls.

* `Plainly`: some calls were sent that open, check or close something, and the transaction is as it
  was. So it is with `close_plainly` and `connect_plainly`;
* `connect_session`: whoever is connected has a session;
* `begin_link`, `run_call`, `commit_link`, `rollback_link`: one call each, and what its answer leads
  to;
* `execute_maybeAlone`: at most one statement is run, outside of the transaction;
* `RefusesStatementsOnly`: where the database refuses nothing else, connecting, committing and closing
  succeed;
* `AcceptsAll`: where it refuses nothing, so do statements.
-/

namespace GraphFeed.Graph

/-! ## 1. Links -/

/-- What a connection holds, apart from its log. -/
structure Link where
  session : Option Handle
  transaction : Option Handle
  calls : List Call

/-- What the connection holds, apart from its log. -/
def Connection.link (c : Connection) : Link := ⟨c.session, c.transaction, c.calls⟩

/-- Only calls that open, check or close something come in between, and the transaction stays. -/
structure Plainly (k k' : Link) : Prop where
  calls : ∃ more : List Call, (∀ call ∈ more, call.isPlain = true) ∧ k'.calls = more ++ k.calls
  transaction : k'.transaction = k.transaction

namespace Plainly

variable {k k' k'' : Link}

theorem refl (k : Link) : Plainly k k :=
  ⟨⟨[], fun _ h => absurd h List.not_mem_nil, rfl⟩, rfl⟩

theorem trans (h : Plainly k k') (h' : Plainly k' k'') : Plainly k k'' := by
  obtain ⟨⟨more, hmore, hcalls⟩, ht⟩ := h
  obtain ⟨⟨more', hmore', hcalls'⟩, ht'⟩ := h'
  refine ⟨⟨more' ++ more, fun call hc => ?_, ?_⟩, ht'.trans ht⟩
  · exact (List.mem_append.mp hc).elim (hmore' call) (hmore call)
  · rw [hcalls', hcalls, List.append_assoc]

/-- What comes after a plain call, which may change the session. -/
theorem after (call : Call) {session : Option Handle} (hplain : call.isPlain = true)
    (h : Plainly ⟨session, k.transaction, call :: k.calls⟩ k') : Plainly k k' := by
  have hcall : Plainly k ⟨session, k.transaction, call :: k.calls⟩ := by
    refine ⟨⟨[call], fun c hc => ?_, rfl⟩, rfl⟩
    rw [List.mem_singleton.mp hc]
    exact hplain
  exact hcall.trans h

/-- What every plain call keeps is kept. -/
theorem keeps {motive : List Call → Prop} (h : Plainly k k')
    (hstep : ∀ {call : Call} {earlier : List Call}, call.isPlain = true →
      motive earlier → motive (call :: earlier)) (hk : motive k.calls) : motive k'.calls := by
  obtain ⟨⟨more, hmore, hcalls⟩, _⟩ := h
  rw [hcalls]
  clear hcalls
  induction more with
  | nil => exact hk
  | cons call more ih =>
    exact hstep (hmore call (List.mem_cons_self ..))
      (ih fun c hc => hmore c (List.mem_cons_of_mem _ hc))

end Plainly

/-- Why the server has refused a call, if it has. -/
def refusal? (server : Server) (earlier : List Call) (call : Call) : Option Text :=
  match server earlier call with
  | .ok _ => none
  | .error message => some message

theorem accepts_of_refusal? {server : Server} {earlier : List Call} {call : Call}
    (h : refusal? server earlier call = none) : accepts server earlier call = true := by
  unfold refusal? at h
  unfold accepts
  cases hanswer : server earlier call with
  | ok rows => rfl
  | error message =>
    rw [hanswer] at h
    cases h

/-- The call by which a statement is run: in the transaction if there is one, and otherwise in the
    session. -/
def Link.call? (k : Link) (r : Request) : Option Call :=
  match k.transaction with
  | some transaction => some (.run transaction r.query r.parameters)
  | none => k.session.map fun session => .runAlone session r.query r.parameters

/-- At most one statement is sent outside of the transaction, and else plain calls. -/
def MaybeAlone (query : Value) (parameters : Parameters) (k k' : Link) : Prop :=
  Plainly k k' ∨ ∃ (between : Link) (session : Handle), Plainly k between ∧
    Plainly ⟨between.session, between.transaction, .runAlone session query parameters
      :: between.calls⟩ k'

namespace Connection

variable (server : Server) (c : Connection)

/-! ## 2. Opening and closing -/

theorem closeDriver_plainly : Plainly c.link (c.closeDriver server).2.link := by
  unfold closeDriver
  cases hd : c.driver with
  | none => exact .refl _
  | some driver =>
    cases ha : server c.calls (.closeDriver driver) with
    | error message => simp only [send, ha]; exact .after (.closeDriver driver) rfl (.refl _)
    | ok rows => simp only [send, ha]; exact .after (.closeDriver driver) rfl (.refl _)

theorem close_plainly : Plainly c.link (c.close server).2.link := by
  unfold close
  cases hs : c.session with
  | none => exact c.closeDriver_plainly server
  | some session =>
    cases ha : server c.calls (.closeSession session) with
    | error message => simp only [send, ha]; exact .after (.closeSession session) rfl (.refl _)
    | ok rows =>
      simp only [send, ha]
      let c' : Connection := { c with session := none, calls := .closeSession session :: c.calls }
      exact .after (.closeSession session) rfl (c'.closeDriver_plainly server)

theorem giveUp_plainly (message : Text) : Plainly c.link (c.giveUp server message).2.link := by
  have hclose := c.close_plainly server
  unfold giveUp
  revert hclose
  rcases c.close server with ⟨_ | _, c'⟩ <;> exact id

theorem giveUp_fails (message : Text) : (c.giveUp server message).1 ≠ .ok () := by
  unfold giveUp
  rcases c.close server with ⟨_ | _, c'⟩ <;> exact fun h => nomatch h

theorem openSession_plainly (driver : Handle) :
    Plainly c.link (c.openSession server driver).2.link := by
  let call : Call := .openSession driver c.address.database
  unfold openSession
  cases ha : server c.calls (.openSession driver c.address.database) with
  | error message =>
    simp only [send, ha]
    exact .after call rfl (giveUp_plainly server { c with calls := call :: c.calls } message)
  | ok rows => simp only [send, ha]; exact .after call rfl (.refl _)

theorem openSession_session {driver : Handle} (h : (c.openSession server driver).1 = .ok ()) :
    (c.openSession server driver).2.session.isSome = true := by
  unfold openSession at h ⊢
  cases ha : server c.calls (.openSession driver c.address.database) with
  | error message => simp only [send, ha] at h; exact (giveUp_fails server _ message h).elim
  | ok rows => simp only [send, ha]; rfl

theorem checkDriver_plainly (driver : Handle) :
    Plainly c.link (c.checkDriver server driver).2.link := by
  let next : Connection := { c with calls := .verify driver :: c.calls }
  unfold checkDriver
  cases ha : server c.calls (.verify driver) with
  | error message =>
    simp only [send, ha]
    exact .after (.verify driver) rfl (next.giveUp_plainly server message)
  | ok rows =>
    simp only [send, ha]
    exact .after (.verify driver) rfl (next.openSession_plainly server driver)

theorem checkDriver_session {driver : Handle} (h : (c.checkDriver server driver).1 = .ok ()) :
    (c.checkDriver server driver).2.session.isSome = true := by
  unfold checkDriver at h ⊢
  cases ha : server c.calls (.verify driver) with
  | error message => simp only [send, ha] at h; exact (giveUp_fails server _ message h).elim
  | ok rows => simp only [send, ha] at h ⊢; exact openSession_session server _ h

/-- **Connecting opens, checks and closes things, and does nothing else.** -/
theorem connect_plainly : Plainly c.link (c.connect server).2.link := by
  let noted := c.note .debug ("Connecting to Neo4j @ " ++ c.address.uri.shown)
  let call : Call := .openDriver c.address.uri c.address.user (credentials c.address.password)
  unfold connect
  cases ha : server c.calls (.openDriver c.address.uri c.address.user
      (credentials c.address.password)) with
  | error message =>
    simp only [send, note, ha]
    exact .after call rfl (giveUp_plainly server { noted with calls := call :: c.calls } message)
  | ok rows =>
    simp only [send, note, ha]
    exact .after call rfl (checkDriver_plainly server
      { noted with driver := some c.calls.length, calls := call :: c.calls } c.calls.length)

/-- **Whoever is connected has a session.** -/
theorem connect_session (h : (c.connect server).1 = .ok ()) :
    (c.connect server).2.session.isSome = true := by
  unfold connect at h ⊢
  cases ha : server c.calls (.openDriver c.address.uri c.address.user
      (credentials c.address.password)) with
  | error message => simp only [send, note, ha] at h; exact (giveUp_fails server _ message h).elim
  | ok rows => simp only [send, note, ha] at h ⊢; exact checkDriver_session server _ h

/-! ## 3. One call each -/

/-- With a session, a transaction is begun by one call. -/
theorem begin_link {session : Handle} (hs : c.session = some session) :
    (accepts server c.calls (.begin session) = true ∧ (c.begin server).1 = .ok () ∧
      (c.begin server).2.link
        = ⟨c.session, some c.calls.length, .begin session :: c.calls⟩) ∨
    (accepts server c.calls (.begin session) = false ∧ (∃ e, (c.begin server).1 = .error e) ∧
      (c.begin server).2.link = ⟨c.session, c.transaction, .begin session :: c.calls⟩) := by
  have hensure : c.ensureSession server = (.ok (), c) := by
    rw [ensureSession, hs]
    rfl
  unfold begin accepts
  simp only [hensure, hs, send]
  cases ha : server c.calls (.begin session) with
  | error message => exact .inr ⟨rfl, ⟨_, rfl⟩, rfl⟩
  | ok _ => exact .inl ⟨rfl, rfl, by simp only [link, nextHandle]⟩

/-- With a session, a statement is run by one call. -/
theorem run_call {r : Request} {call : Call} (hs : c.session.isSome = true)
    (hcall : c.link.call? r = some call) :
    (c.run server r.query r.parameters).2.link = ⟨c.session, c.transaction, call :: c.calls⟩ ∧
      ((refusal? server c.calls call = none ∧
          ∃ rows, (c.run server r.query r.parameters).1 = .ok rows) ∨
        ∃ message, refusal? server c.calls call = some message ∧
          (c.run server r.query r.parameters).1 = .error (.write .statement message)) := by
  have hensure : c.ensureSession server = (.ok (), c) := by
    rw [ensureSession, hs]
    rfl
  have hstatement : c.statementCall? r.query r.parameters = some call := hcall
  unfold run refusal?
  simp only [hensure, hstatement, send, refusedStatement]
  cases server c.calls call with
  | error message => exact ⟨rfl, .inr ⟨message, rfl, rfl⟩⟩
  | ok rows => exact ⟨rfl, .inl ⟨rfl, rows, rfl⟩⟩

/-- A transaction is committed by one call, and forgotten. -/
theorem commit_link {t : Handle} (ht : c.transaction = some t) :
    (c.commit server).2.link = ⟨c.session, none, .commit t :: c.calls⟩ ∧
      ((accepts server c.calls (.commit t) = true ∧ (c.commit server).1 = .ok ()) ∨
        (accepts server c.calls (.commit t) = false ∧ ∃ e, (c.commit server).1 = .error e)) := by
  unfold commit accepts
  simp only [ht, send]
  cases ha : server c.calls (.commit t) with
  | error message => exact ⟨rfl, .inr ⟨rfl, _, rfl⟩⟩
  | ok _ => exact ⟨rfl, .inl ⟨rfl, rfl⟩⟩

/-- A transaction is rolled back by one call, and forgotten. -/
theorem rollback_link {t : Handle} (ht : c.transaction = some t) :
    (c.rollback server).link = ⟨c.session, none, .rollback t :: c.calls⟩ := by
  unfold rollback
  simp only [ht, send]
  cases ha : server c.calls (.rollback t) <;> rfl

/-- Without a transaction nothing is rolled back. -/
theorem rollback_of_none (ht : c.transaction = none) : c.rollback server = c := by
  rw [rollback, ht]

/-! ## 4. Statements outside of the transaction -/

theorem runAlone_maybeAlone (driver : Handle) (query : Value) (parameters : Parameters) :
    MaybeAlone query parameters c.link (c.runAlone server driver query parameters).2.link := by
  let opening : Call := .openSession driver c.address.database
  let session := c.calls.length
  unfold runAlone
  simp only [send, refusedStatement, nextHandle]
  cases server c.calls (.openSession driver c.address.database) with
  | error message => exact .inl (.after opening rfl (.refl _))
  | ok _ =>
    refine .inr ⟨⟨c.session, c.transaction, opening :: c.calls⟩, session,
      .after opening rfl (.refl _), ?_⟩
    -- the session is closed, whether the statement was refused or not
    dsimp only
    cases server (.runAlone session query parameters :: opening :: c.calls)
        (.closeSession session) with
    | error message => exact .after (.closeSession session) rfl (.refl _)
    | ok _ =>
      cases server (opening :: c.calls) (.runAlone session query parameters) with
      | error message => exact .after (.closeSession session) rfl (.refl _)
      | ok rows => exact .after (.closeSession session) rfl (.refl _)

/-- **A statement outside of the transaction is sent at most once.** -/
theorem execute_maybeAlone (query : Value) (parameters : Parameters) :
    MaybeAlone query parameters c.link (c.execute server query parameters).2.link := by
  have hensure : Plainly c.link (c.ensureDriver server).2.link := by
    unfold ensureDriver
    split
    · exact .refl _
    · exact c.connect_plainly server
  unfold execute
  cases he : c.ensureDriver server with
  | mk r c' =>
    rw [he] at hensure
    cases r with
    | error e => exact .inl hensure
    | ok _ =>
      dsimp only
      cases hd : c'.driver with
      | none => exact .inl hensure
      | some driver =>
        rcases c'.runAlone_maybeAlone server driver query parameters with
          h | ⟨between, session, h, h'⟩
        · exact .inl (hensure.trans h)
        · exact .inr ⟨between, session, hensure.trans h, h'⟩

end Connection

/-! ## 5. Databases that refuse statements only -/

/-- What is accepted is answered. -/
theorem answer_of_accepts {server : Server} {earlier : List Call} {call : Call}
    (h : accepts server earlier call = true) : ∃ rows, server earlier call = .ok rows := by
  unfold accepts at h
  cases hanswer : server earlier call with
  | ok rows => exact ⟨rows, rfl⟩
  | error message =>
    rw [hanswer] at h
    cases h

/-- All calls are accepted, but for statements, which may be refused. -/
def RefusesStatementsOnly (server : Server) : Prop :=
  ∀ earlier call, call.isStatement = false → accepts server earlier call = true

namespace RefusesStatementsOnly

variable {server : Server} (h : RefusesStatementsOnly server) (c : Connection)

include h

/-- Any other call is answered. -/
theorem answer (earlier : List Call) (call : Call) (hcall : call.isStatement = false) :
    ∃ rows, server earlier call = .ok rows :=
  answer_of_accepts (h earlier call hcall)

theorem closeDriver : (c.closeDriver server).1 = .ok () := by
  unfold Connection.closeDriver
  cases c.driver with
  | none => rfl
  | some driver =>
    obtain ⟨rows, hrows⟩ := h.answer c.calls (.closeDriver driver) rfl
    simp only [Connection.send, hrows]

theorem close : (c.close server).1 = .ok () := by
  unfold Connection.close
  cases c.session with
  | none => exact h.closeDriver c
  | some session =>
    obtain ⟨rows, hrows⟩ := h.answer c.calls (.closeSession session) rfl
    simp only [Connection.send, hrows]
    exact h.closeDriver _

theorem openSession (driver : Handle) : (c.openSession server driver).1 = .ok () := by
  obtain ⟨rows, hrows⟩ := h.answer c.calls (.openSession driver c.address.database) rfl
  unfold Connection.openSession
  simp only [Connection.send, hrows]

theorem checkDriver (driver : Handle) : (c.checkDriver server driver).1 = .ok () := by
  obtain ⟨rows, hrows⟩ := h.answer c.calls (.verify driver) rfl
  unfold Connection.checkDriver
  simp only [Connection.send, hrows]
  exact h.openSession _ driver

/-- **Connecting succeeds.** -/
theorem connect : (c.connect server).1 = .ok () := by
  obtain ⟨rows, hrows⟩ := h.answer c.calls (.openDriver c.address.uri c.address.user
    (Connection.credentials c.address.password)) rfl
  unfold Connection.connect
  simp only [Connection.send, Connection.note, hrows]
  exact h.checkDriver _ _

/-- **So does committing.** -/
theorem commit : (c.commit server).1 = .ok () := by
  unfold Connection.commit
  cases c.transaction with
  | none => rfl
  | some t =>
    obtain ⟨rows, hrows⟩ := h.answer c.calls (.commit t) rfl
    simp only [Connection.send, hrows]

/-- **A query outside of the transaction is answered**, unless it is refused itself. -/
theorem execute (query : Value) (parameters : Parameters) :
    (∃ rows, (c.execute server query parameters).1 = .ok rows) ∨
      ∃ message earlier call, server earlier call = .error message ∧
        (c.execute server query parameters).1 = .error (.write .statement message) := by
  have hensure : (c.ensureDriver server).1 = .ok () := by
    unfold Connection.ensureDriver
    split
    · rfl
    · exact h.connect c
  unfold Connection.execute
  revert hensure
  rcases c.ensureDriver server with ⟨e | _, c'⟩
  · exact nofun
  · intro _
    dsimp only
    cases c'.driver with
    | none => exact .inl ⟨[], rfl⟩
    | some driver =>
      obtain ⟨rows, hrows⟩ := h.answer c'.calls (.openSession driver c'.address.database) rfl
      obtain ⟨rows', hrows'⟩ := h.answer (.runAlone c'.calls.length query parameters
        :: .openSession driver c'.address.database :: c'.calls)
        (.closeSession c'.calls.length) rfl
      unfold Connection.runAlone
      simp only [Connection.send, Connection.nextHandle, hrows, hrows']
      cases hanswer : server (.openSession driver c'.address.database :: c'.calls)
          (.runAlone c'.calls.length query parameters) with
      | ok rows => exact .inl ⟨rows, rfl⟩
      | error message => exact .inr ⟨message, _, _, hanswer, rfl⟩

end RefusesStatementsOnly

/-- A database that refuses the second call of a kind. -/
def refusingSecond (kind : Call → Bool) : Server := fun earlier call =>
  if kind call && earlier.countP kind == 1 then .error "refused" else .ok []

theorem refusesStatementsOnly_refusingSecond {kind : Call → Bool}
    (hkind : ∀ call, kind call = true → call.isStatement = true) :
    RefusesStatementsOnly (refusingSecond kind) := by
  intro earlier call hcall
  have hother : kind call = false := Bool.eq_false_iff.mpr fun h => by
    rw [hkind call h] at hcall
    cases hcall
  rw [accepts, refusingSecond, hother]
  rfl

/-! ## 6. Databases that refuse nothing -/

/-- All calls are accepted. -/
def AcceptsAll (server : Server) : Prop := ∀ earlier call, accepts server earlier call = true

namespace AcceptsAll

variable {server : Server} (h : AcceptsAll server) (c : Connection)

include h

theorem refusesStatementsOnly : RefusesStatementsOnly server := fun earlier call _ => h earlier call

theorem answer (earlier : List Call) (call : Call) : ∃ rows, server earlier call = .ok rows :=
  answer_of_accepts (h earlier call)

/-- There is a session already, or connecting opens one. -/
theorem ensureSession : (c.ensureSession server).1 = .ok () := by
  unfold Connection.ensureSession
  split
  · rfl
  · exact h.refusesStatementsOnly.connect c

/-- **Statements are answered**, whether there is a session already or not. -/
theorem run (query : Value) (parameters : Parameters) :
    ∃ rows, (c.run server query parameters).1 = .ok rows := by
  have hensure := h.ensureSession c
  unfold Connection.run
  revert hensure
  rcases c.ensureSession server with ⟨e | _, c'⟩
  · exact nofun
  · intro _
    dsimp only
    cases c'.statementCall? query parameters with
    | none => exact ⟨[], rfl⟩
    | some call =>
      obtain ⟨rows, hrows⟩ := h.answer c'.calls call
      simp only [Connection.send, hrows]
      exact ⟨rows, rfl⟩

/-- A transaction is begun. -/
theorem begin : (c.begin server).1 = .ok () := by
  have hensure := h.ensureSession c
  unfold Connection.begin
  revert hensure
  rcases c.ensureSession server with ⟨e | _, c'⟩
  · exact nofun
  · intro _
    dsimp only
    cases c'.session with
    | none => rfl
    | some session =>
      obtain ⟨rows, hrows⟩ := h.answer c'.calls (.begin session)
      simp only [Connection.send, hrows]

/-- So are queries outside of the transaction. -/
theorem execute (query : Value) (parameters : Parameters) :
    ∃ rows, (c.execute server query parameters).1 = .ok rows := by
  rcases h.refusesStatementsOnly.execute c query parameters with hok | ⟨message, earlier, call, hno, _⟩
  · exact hok
  · obtain ⟨rows, hrows⟩ := h.answer earlier call
    rw [hrows] at hno
    cases hno

end AcceptsAll

end GraphFeed.Graph
