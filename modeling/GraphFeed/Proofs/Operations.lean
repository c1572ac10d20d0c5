import GraphFeed.Proofs.Handles

/-!
# Operations in any order

A connection can be used by any operations in any order, and the database may refuse any call.

* `Accurate`: the connection holds what its history tells. `perform_accurate`: every operation keeps
  it;
* `InSession`: the transaction that is held was begun in the session that is held.
  `perform_inSession`: an operation keeps it if it does not change the session while there is a
  transaction, and `tidy_of_inSession`: only then;
* `operations_directed`: **statements go to the transaction begun last that was not ended, or to the
  session**. Transactions are used in their sessions just where the operations are `Tidy`.

Closing does not forget the transaction: `closed_used`.
-/

namespace GraphFeed.Graph

variable {server : Server} {call : Call}

/-! ## 1. What a connection holds -/

/-- **The connection holds what its history tells**, and whatever was sent to a transaction was sent to
    the one begun last, before it was ended. -/
structure Accurate (server : Server) (k : Link) : Prop where
  live : Live server k
  transaction : k.transaction = unended server k.calls
  used : Uses (fun t earlier => unended server earlier = some t) k.calls

namespace Accurate

variable {k k' : Link}

/-- What does not touch the transaction. -/
theorem untouched (h : Accurate server k) (huntouched : Untouched k k') (hlive : Live server k') :
    Accurate server k' where
  live := hlive
  transaction := by rw [huntouched.transaction, h.transaction, huntouched.unended]
  used := huntouched.uses h.used

/-- A call that neither begins nor ends a transaction. -/
theorem aside (h : Accurate server k) (hlive : Live server ⟨k.session, k.transaction, call :: k.calls⟩)
    (hbegin : (call.isBegin && accepts server k.calls call) = false) (hended : call.ended? = none)
    (hused : ∀ t, call.used? = some t → k.transaction = some t) :
    Accurate server ⟨k.session, k.transaction, call :: k.calls⟩ where
  live := hlive
  transaction := h.transaction.trans (unended_of_other hbegin hended).symm
  used := h.used.cons fun t ht => h.transaction.symm.trans (hused t ht)

/-- A statement goes to the transaction, if there is one. -/
theorem statement (h : Accurate server k) {st : Statement} (hcall : k.call? st = some call) :
    Accurate server ⟨k.session, k.transaction, call :: k.calls⟩ := by
  obtain ⟨hbegin, hended, hsession, hused⟩ := Link.uses_of_call? hcall
  exact h.aside (h.live.aside call hsession) (by rw [hbegin, Bool.false_and]) hended hused

/-- A transaction that could not be begun. -/
theorem unbegun (h : Accurate server k) {session : Handle}
    (hrefuse : accepts server k.calls (.begin session) = false) :
    Accurate server ⟨k.session, k.transaction, .begin session :: k.calls⟩ :=
  h.aside (h.live.aside _ nofun) (by rw [hrefuse, Bool.and_false]) rfl nofun

theorem begun (h : Accurate server k) {session : Handle}
    (haccept : accepts server k.calls (.begin session) = true) :
    Accurate server ⟨k.session, some k.calls.length, .begin session :: k.calls⟩ where
  live := h.live.cons (fun _ _ heq => by cases heq) _
  transaction := (unended_of_begin haccept).symm
  used := h.used.cons nofun

/-- The transaction is ended, whatever the answer is. -/
theorem ended (h : Accurate server k) {t : Handle} (ht : k.transaction = some t)
    (hended : call.ended? = some t) : Accurate server ⟨k.session, none, call :: k.calls⟩ where
  live := h.live.cons (fun _ _ heq => by rw [heq] at hended; cases hended) _
  transaction := (unended_of_ended (h.transaction.symm.trans ht) hended).symm
  used := h.used.cons fun t' ht' => by
    have hused : call.used? = call.ended? := by cases call <;> first | rfl | cases hended
    rw [hused, hended] at ht'
    rw [← ht', ← h.transaction, ht]

end Accurate

/-! ## 2. Operations -/

/-- The operations on a connection. -/
inductive Operation
  | connect
  | begin
  | run (query : Text) (parameters : Parameters)
  | execute (query : Text) (parameters : Parameters)
  | commit
  | rollback
  | close

/-- What an operation leaves, whether it succeeds or not. -/
def Operation.perform (server : Server) (c : Connection) : Operation → Connection
  | connect => (c.connect server).2
  | begin => (c.begin server).2
  | run query parameters => (c.run server query parameters).2
  | execute query parameters => (c.execute server query parameters).2
  | commit => (c.commit server).2
  | rollback => c.rollback server
  | close => (c.close server).2

/-- What operations leave that are performed one after the other. -/
def performAll (server : Server) (c : Connection) (operations : List Operation) : Connection :=
  operations.foldl (Operation.perform server) c

section Performing

variable {c : Connection} {M : Link → Prop}

/-- What holds once there is a session and is kept when a transaction is begun or refused holds
    afterwards. -/
theorem begin_keeps (hensured : M (c.ensureSession server).2.link)
    (hbegun : ∀ {k : Link} {session : Handle}, M k → k.session = some session →
      accepts server k.calls (.begin session) = true →
      M ⟨k.session, some k.calls.length, .begin session :: k.calls⟩)
    (hrefused : ∀ {k : Link} {session : Handle}, M k →
      accepts server k.calls (.begin session) = false →
      M ⟨k.session, k.transaction, .begin session :: k.calls⟩) :
    M (c.begin server).2.link := by
  rcases hensure : c.ensureSession server with ⟨e | _, c'⟩
  · rw [hensure] at hensured
    rw [c.begin_of_refused hensure]
    exact hensured
  · rw [hensure] at hensured
    rw [c.begin_of_ensured hensure]
    obtain ⟨session, hsession⟩ := c.session_of_ensured hensure
    rcases c'.begin_link server hsession with ⟨haccept, _, hlink⟩ | ⟨hrefuse, _, hlink⟩
    · rw [hlink]
      exact hbegun hensured hsession haccept
    · rw [hlink]
      exact hrefused hensured hrefuse

/-- So it is with statements. -/
theorem run_keeps (st : Statement) (hensured : M (c.ensureSession server).2.link)
    (hstatement : ∀ {k : Link} {call : Call}, M k → k.call? st = some call →
      M ⟨k.session, k.transaction, call :: k.calls⟩) :
    M (c.run server st.query st.parameters).2.link := by
  rcases hensure : c.ensureSession server with ⟨e | _, c'⟩
  · rw [hensure] at hensured
    rw [c.run_of_refused hensure]
    exact hensured
  · rw [hensure] at hensured
    rw [c.run_of_ensured hensure]
    obtain ⟨session, hsession⟩ := c.session_of_ensured hensure
    have hcall := Link.call?_of_session (k := c'.link) hsession st
    rw [(c'.run_call server (by rw [hsession]; rfl) hcall).1]
    exact hstatement hensured hcall

section Ending

variable (hc : M c.link) (hended : ∀ {t : Handle} {call : Call}, c.transaction = some t →
  call.ended? = some t → M ⟨c.session, none, call :: c.calls⟩)

include hc hended

/-- And with what ends the transaction, if there is one. -/
theorem commit_keeps : M (c.commit server).2.link := by
  cases ht : c.transaction with
  | none =>
    rw [Connection.commit, ht]
    exact hc
  | some t =>
    rw [(c.commit_link server ht).1]
    exact hended ht rfl

theorem rollback_keeps : M (c.rollback server).link := by
  cases ht : c.transaction with
  | none =>
    rw [c.rollback_of_none server ht]
    exact hc
  | some t =>
    rw [c.rollback_link server ht]
    exact hended ht rfl

end Ending

theorem Accurate.ensureSession (h : Accurate server c.link) :
    Accurate server (c.ensureSession server).2.link :=
  h.untouched (.of_plainly c.ensureSession_plainly) (c.ensureSession_live h.live)

/-- **Every operation leaves a connection that holds what its history tells.** -/
theorem perform_accurate (h : Accurate server c.link) (operation : Operation) :
    Accurate server (operation.perform server c).link := by
  cases operation with
  | connect => exact h.untouched (.of_plainly (c.connect_plainly server)) (c.connect_live h.live)
  | begin => exact begin_keeps h.ensureSession (fun h _ => h.begun) fun h => h.unbegun
  | run query parameters =>
    exact run_keeps ⟨query, parameters⟩ h.ensureSession fun h hcall => h.statement hcall
  | execute query parameters =>
    exact h.untouched (.of_maybeAlone (c.execute_maybeAlone server query parameters))
      (c.execute_live query parameters h.live)
  | commit => exact commit_keeps h fun ht hended => h.ended ht hended
  | rollback => exact rollback_keeps h fun ht hended => h.ended ht hended
  | close => exact h.untouched (.of_plainly (c.close_plainly server)) (c.close_live h.live)

end Performing

/-! ## 3. Sessions of transactions -/

/-- **The transaction that is held was begun in the session that is held**, and what was sent to
    transactions was sent while their session was open. -/
structure InSession (server : Server) (k : Link) : Prop where
  accurate : Accurate server k
  held : ∀ t, k.transaction = some t → begunIn server k.calls = k.session
  used : Uses (fun _ earlier => ∃ session, begunIn server earlier = some session ∧
    session ∈ openSessions server earlier) k.calls

namespace InSession

variable {k k' : Link}

/-- The session of the transaction is open. -/
theorem session (h : InSession server k) {t : Handle} (ht : k.transaction = some t) :
    ∃ session, k.session = some session ∧ begunIn server k.calls = some session ∧
      session ∈ openSessions server k.calls := by
  obtain ⟨session, hbegun⟩ := begunIn_of_unended (h.accurate.transaction.symm.trans ht)
  have hsession : k.session = some session := (h.held t ht).symm.trans hbegun
  exact ⟨session, hsession, hbegun, h.accurate.live session hsession⟩

/-- What does not touch the transaction may change the session only if there is no transaction. -/
theorem untouched (h : InSession server k) (huntouched : Untouched k k') (hlive : Live server k')
    (hsession : k.transaction = none ∨ k'.session = k.session) : InSession server k' where
  accurate := h.accurate.untouched huntouched hlive
  held := fun t ht => by
    rw [huntouched.transaction] at ht
    rw [huntouched.begunIn, h.held t ht]
    exact (hsession.resolve_left fun hnone => by rw [hnone] at ht; cases ht).symm
  used := huntouched.uses h.used

/-- A call that begins no transaction, and is sent to the one held, if to any. -/
theorem aside (h : InSession server k) {call : Call} {transaction : Option Handle}
    (haccurate : Accurate server ⟨k.session, transaction, call :: k.calls⟩)
    (hbegin : (call.isBegin && accepts server k.calls call) = false)
    (hkept : ∀ t, transaction = some t → k.transaction = some t) :
    InSession server ⟨k.session, transaction, call :: k.calls⟩ where
  accurate := haccurate
  held := fun t ht => (begunIn_of_other hbegin).trans (h.held t (hkept t ht))
  used := h.used.cons fun t ht => by
    have hunended : unended server k.calls = some t := haccurate.used [] call k.calls t rfl ht
    obtain ⟨session, _, hopen⟩ := h.session (h.accurate.transaction.trans hunended)
    exact ⟨session, hopen⟩

theorem begun (h : InSession server k) {session : Handle} (hsession : k.session = some session)
    (haccept : accepts server k.calls (.begin session) = true) :
    InSession server ⟨k.session, some k.calls.length, .begin session :: k.calls⟩ where
  accurate := h.accurate.begun haccept
  held := fun _ _ => (if_pos haccept).trans hsession.symm
  used := h.used.cons nofun

theorem unbegun (h : InSession server k) {session : Handle}
    (hrefuse : accepts server k.calls (.begin session) = false) :
    InSession server ⟨k.session, k.transaction, .begin session :: k.calls⟩ :=
  h.aside (h.accurate.unbegun hrefuse) (by rw [hrefuse, Bool.and_false]) fun _ => id

theorem statement (h : InSession server k) {st : Statement} {call : Call}
    (hcall : k.call? st = some call) :
    InSession server ⟨k.session, k.transaction, call :: k.calls⟩ := by
  obtain ⟨hbegin, _, _, _⟩ := Link.uses_of_call? hcall
  exact h.aside (h.accurate.statement hcall) (by rw [hbegin, Bool.false_and]) fun _ => id

theorem ended (h : InSession server k) {t : Handle} {call : Call} (ht : k.transaction = some t)
    (hended : call.ended? = some t) : InSession server ⟨k.session, none, call :: k.calls⟩ := by
  refine h.aside (h.accurate.ended ht hended) ?_ nofun
  cases call <;> first | rfl | cases hended

end InSession

/-- **No operation changes the session while a transaction is held.** -/
def Tidy (server : Server) : Connection → List Operation → Prop
  | _, [] => True
  | c, operation :: rest =>
    (c.transaction = none ∨ (operation.perform server c).session = c.session) ∧
      Tidy server (operation.perform server c) rest

section Performing

variable {c : Connection}

/-- Without a session there is no transaction, so connecting does no harm. -/
theorem InSession.ensureSession (h : InSession server c.link) :
    InSession server (c.ensureSession server).2.link := by
  cases hsession : c.session with
  | some session =>
    rw [c.ensureSession_of_session hsession]
    exact h
  | none =>
    refine h.untouched (.of_plainly c.ensureSession_plainly)
      (c.ensureSession_live h.accurate.live) (.inl ?_)
    -- a transaction would be held with its session
    refine Option.eq_none_iff_forall_ne_some.mpr fun t ht => ?_
    obtain ⟨session, hsome, _⟩ := h.session ht
    cases hsession.symm.trans hsome

/-- **A tidy operation keeps transactions in their session.** -/
theorem perform_inSession (h : InSession server c.link) {operation : Operation}
    (htidy : c.transaction = none ∨ (operation.perform server c).session = c.session) :
    InSession server (operation.perform server c).link := by
  have haccurate := perform_accurate h.accurate operation
  cases operation with
  | connect => exact h.untouched (.of_plainly (c.connect_plainly server)) haccurate.live htidy
  | begin =>
    exact begin_keeps h.ensureSession (fun h hsession => h.begun hsession) fun h => h.unbegun
  | run query parameters =>
    exact run_keeps ⟨query, parameters⟩ h.ensureSession fun h hcall => h.statement hcall
  | execute query parameters =>
    exact h.untouched (.of_maybeAlone (c.execute_maybeAlone server query parameters))
      haccurate.live htidy
  | commit => exact commit_keeps h fun ht hended => h.ended ht hended
  | rollback => exact rollback_keeps h fun ht hended => h.ended ht hended
  | close => exact h.untouched (.of_plainly (c.close_plainly server)) haccurate.live htidy

/-- An operation that keeps a transaction in its session is tidy. -/
theorem tidy_of_inSession (h : InSession server c.link) {operation : Operation}
    (h' : InSession server (operation.perform server c).link) :
    c.transaction = none ∨ (operation.perform server c).session = c.session := by
  rcases ht : c.transaction with _ | t
  · exact .inl rfl
  right
  have huntouched : ∀ {k : Link}, Untouched c.link k → InSession server k → k.session = c.session :=
    fun huntouched h' => by
      rw [← h'.held t (huntouched.transaction.trans ht), huntouched.begunIn]
      exact h.held t ht
  -- there is a session, so none is opened before a statement or a transaction
  have hensured : (c.ensureSession server).2.session = c.session := by
    obtain ⟨session, hsession, _⟩ := h.session ht
    rw [c.ensureSession_of_session hsession]
  cases operation with
  | connect => exact huntouched (.of_plainly (c.connect_plainly server)) h'
  | begin =>
    exact begin_keeps (M := fun k => k.session = c.session) hensured (fun h _ _ => h) fun h _ => h
  | run query parameters =>
    exact run_keeps (M := fun k => k.session = c.session) ⟨query, parameters⟩ hensured fun h _ => h
  | execute query parameters =>
    exact huntouched (.of_maybeAlone (c.execute_maybeAlone server query parameters)) h'
  | commit => exact commit_keeps (M := fun k => k.session = c.session) rfl fun _ _ => rfl
  | rollback => exact rollback_keeps (M := fun k => k.session = c.session) rfl fun _ _ => rfl
  | close => exact huntouched (.of_plainly (c.close_plainly server)) h'

end Performing

/-! ## 4. All operations -/

theorem performAll_accurate (operations : List Operation) : ∀ {c : Connection},
    Accurate server c.link → Accurate server (performAll server c operations).link := by
  induction operations with
  | nil => exact id
  | cons operation rest ih => exact fun h => ih (perform_accurate h operation)

/-- **Operations are tidy just where they keep transactions in their sessions throughout.** -/
theorem tidy_iff (operations : List Operation) : ∀ {c : Connection}, InSession server c.link →
    (Tidy server c operations ↔
      ∀ before, before <+: operations → InSession server (performAll server c before).link) := by
  induction operations with
  | nil =>
    refine fun h => ⟨fun _ before hbefore => ?_, fun _ => trivial⟩
    rw [List.prefix_nil.mp hbefore]
    exact h
  | cons operation rest ih =>
    intro c h
    constructor
    · rintro ⟨htidy, hrest⟩ before hbefore
      rcases List.prefix_cons_iff.mp hbefore with rfl | ⟨later, rfl, hlater⟩
      · exact h
      · exact (ih (perform_inSession h htidy)).mp hrest later hlater
    · intro hall
      have hone := hall [operation] (List.prefix_cons_iff.mpr (.inr ⟨[], rfl, List.nil_prefix⟩))
      refine ⟨tidy_of_inSession h hone, (ih hone).mpr fun before hbefore => ?_⟩
      exact hall (operation :: before) (List.prefix_cons_iff.mpr (.inr ⟨before, rfl, hbefore⟩))

/-- **Where statements go**: what was sent to a transaction was sent to the one begun last, before it
    was ended. The next statement goes to that transaction too, or if there is none to the session
    held, which is open. -/
structure Directed (server : Server) (c : Connection) : Prop where
  used : Uses (fun t earlier => unended server earlier = some t) c.calls
  next : ∀ c', c.ensureSession server = (.ok (), c') → ∃ session,
    c'.session = some session ∧ session ∈ openSessions server c'.calls ∧
      ∀ st : Statement, (c.run server st.query st.parameters).2.calls
        = (match unended server c'.calls with
          | some t => .run t st.query st.parameters
          | none => .runAlone session st.query st.parameters) :: c'.calls

/-- **Transactions are used in their sessions**: what was sent to a transaction was sent while its
    session was open. The transaction to which the next statement goes was begun in the session
    held. -/
structure DirectedInSession (server : Server) (c : Connection) : Prop where
  used : Uses (fun _ earlier => ∃ session, begunIn server earlier = some session ∧
    session ∈ openSessions server earlier) c.calls
  held : ∀ t, unended server c.calls = some t → begunIn server c.calls = c.session
  next : ∀ c', c.ensureSession server = (.ok (), c') →
    ∀ t, unended server c'.calls = some t → begunIn server c'.calls = c'.session

theorem Accurate.directed {c : Connection} (h : Accurate server c.link) : Directed server c where
  used := h.used
  next := by
    intro c' hensure
    have hensured := h.ensureSession
    rw [hensure] at hensured
    obtain ⟨session, hsession⟩ := c.session_of_ensured hensure
    refine ⟨session, hsession, hensured.live session hsession, fun st => ?_⟩
    have hcall := Link.call?_of_session (k := c'.link) hsession st
    rw [hensured.transaction] at hcall
    rw [c.run_of_ensured hensure]
    exact congrArg Link.calls (c'.run_call server (by rw [hsession]; rfl) hcall).1

theorem inSession_iff {c : Connection} (h : Accurate server c.link) :
    InSession server c.link ↔ DirectedInSession server c := by
  refine ⟨fun h => ⟨h.used, fun t ht => h.held t (h.accurate.transaction.trans ht), ?_⟩, fun h' =>
    ⟨h, fun t ht => h'.held t (h.transaction.symm.trans ht), h'.used⟩⟩
  intro c' hensure t ht
  have hensured := h.ensureSession
  rw [hensure] at hensured
  exact hensured.held t (hensured.accurate.transaction.trans ht)

/-- **Whatever operations are performed, and whatever the database refuses**, statements go to the
    transaction begun last that was not ended, or to the session. Transactions are used in their
    sessions just where no operation changes the session while a transaction is held. -/
theorem operations_directed (server : Server) (address : Address) (operations : List Operation) :
    Directed server (performAll server (.closed address) operations) ∧
      (Tidy server (.closed address) operations ↔ ∀ before, before <+: operations →
        DirectedInSession server (performAll server (.closed address) before)) := by
  have hclosed : Accurate server (Connection.closed address).link := ⟨.of_none rfl, rfl, .nil⟩
  have hall := fun operations => performAll_accurate operations hclosed
  refine ⟨(hall operations).directed, (tidy_iff operations ⟨hclosed, nofun, .nil⟩).trans ?_⟩
  exact forall₂_congr fun before _ => inSession_iff (hall before)

/-- A transaction is begun, used and committed before the connection is closed. The next statement
    goes to a new session. -/
theorem operations_directed_committed :
    let server : Server := fun _ _ => .ok []
    let address : Address := ⟨.null, .null, .null, .null⟩
    let operations : List Operation := [.begin, .run "RETURN 1" [], .commit, .close]
    Tidy server (.closed address) operations ∧
      DirectedInSession server (performAll server (.closed address) operations) ∧
      Directed server (performAll server (.closed address) operations) := by
  intro server address operations
  have htidy : Tidy server (.closed address) operations :=
    ⟨.inl rfl, .inr rfl, .inr rfl, .inl rfl, trivial⟩
  obtain ⟨hdirected, hiff⟩ := operations_directed server address operations
  exact ⟨htidy, hiff.mp htidy operations List.prefix_rfl, hdirected⟩

/-- **Closing does not forget the transaction.** A statement that follows goes to the transaction of
    the session that was closed, and not to the new session. -/
theorem closed_used :
    let server : Server := fun _ _ => .ok []
    let address : Address := ⟨.null, .null, .null, .null⟩
    let c := performAll server (.closed address) [.begin, .close, .run "RETURN 1" []]
    ∃ earlier, c.calls = .run 3 "RETURN 1" [] :: earlier ∧ begunIn server earlier = some 2 ∧
      2 ∉ openSessions server earlier ∧ c.session = some 8 ∧ 8 ∈ openSessions server earlier ∧
      ¬DirectedInSession server c := by
  intro server address c
  have hopen : openSessions server c.calls.tail = [8] := by decide
  refine ⟨c.calls.tail, rfl, rfl, by rw [hopen]; decide, rfl, by rw [hopen]; decide, fun h => ?_⟩
  obtain ⟨session, hbegun, hmem⟩ := h.used [] (.run 3 "RETURN 1" []) c.calls.tail 3 rfl rfl
  cases hbegun
  rw [hopen] at hmem
  revert hmem
  decide

end GraphFeed.Graph
