import GraphFeed.Proofs.Connections

/-!
# Handles

A history of calls tells which transaction was begun last and not ended since (`unended`), in which
session a transaction was begun last (`begunIn`), and which sessions are open (`openSessions`).

* `Uses`: a property of all calls that are sent to a transaction;
* `Untouched`: calls that neither begin nor use a transaction. They change nothing of what is told
  about it;
* `Live`: the session that a connection holds is open. `close_live`, `connect_live` and
  `execute_live` keep it, whatever the database refuses;
* `run_of_ensured`, `begin_of_ensured`: what needs a session is done in the one there is once the
  connection is made sure of.
-/

namespace GraphFeed.Graph

/-! ## 1. What a history tells -/

namespace Call

/-- The transaction that a call ends, whatever the answer is. -/
def ended? : Call → Option Handle
  | commit t | rollback t => some t
  | _ => none

/-- The transaction that a call is sent to. -/
def used? : Call → Option Handle
  | run t .. => some t
  | call => call.ended?

theorem ended?_of_unused {call : Call} (h : call.used? = none) : call.ended? = none := by
  cases call <;> first | rfl | cases h

theorem used?_of_isPlain {call : Call} (h : call.isPlain = true) : call.used? = none := by
  cases call <;> first | rfl | cases h

end Call

section

variable (server : Server)

/-- The transaction that was begun last, unless it was to be committed or rolled back since. -/
def unended : List Call → Option Handle
  | [] => none
  | call :: earlier =>
    if call.isBegin && accepts server earlier call then some earlier.length
    else (unended earlier).filter fun t => call.ended? != some t

/-- The session in which a transaction was begun last. -/
def begunIn : List Call → Option Handle
  | [] => none
  | call :: earlier =>
    match call with
    | .begin session => if accepts server earlier call then some session else begunIn earlier
    | _ => begunIn earlier

/-- The sessions that were opened and not closed since. -/
def openSessions : List Call → List Handle
  | [] => []
  | call :: earlier =>
    match call with
    | .openSession .. =>
      if accepts server earlier call then earlier.length :: openSessions earlier
      else openSessions earlier
    | .closeSession session =>
      if accepts server earlier call then (openSessions earlier).filter (· != session)
      else openSessions earlier
    | _ => openSessions earlier

end

/-- Of all calls that are sent to a transaction a property holds, with the calls before them. -/
def Uses (P : Handle → List Call → Prop) (calls : List Call) : Prop :=
  ∀ later call earlier t, calls = later ++ call :: earlier → call.used? = some t → P t earlier

variable {server : Server} {call : Call} {earlier calls : List Call}
  {P : Handle → List Call → Prop}

theorem Uses.nil : Uses P [] := fun later _ _ _ h => by
  cases later <;> cases h

theorem Uses.cons (hcall : ∀ t, call.used? = some t → P t earlier)
    (h : Uses P earlier) : Uses P (call :: earlier) := by
  rintro (_ | ⟨_, later⟩) _ _ t hsplit hused
  · cases hsplit
    exact hcall t hused
  · exact h later _ _ t (List.cons.inj hsplit).2 hused

theorem unended_of_begin {session : Handle} (h : accepts server earlier (.begin session) = true) :
    unended server (.begin session :: earlier) = some earlier.length := by
  rw [unended, h]
  rfl

theorem unended_of_other (hbegin : (call.isBegin && accepts server earlier call) = false)
    (hended : call.ended? = none) : unended server (call :: earlier) = unended server earlier := by
  rw [unended, hbegin, hended, if_neg Bool.false_ne_true]
  cases unended server earlier <;> rfl

theorem unended_of_ended {t : Handle} (hunended : unended server earlier = some t)
    (hended : call.ended? = some t) : unended server (call :: earlier) = none := by
  have hbegin : call.isBegin = false := by cases call <;> first | rfl | cases hended
  rw [unended, hbegin, hended, hunended, Bool.false_and, if_neg Bool.false_ne_true]
  exact Option.filter_some_neg (by simp)

theorem begunIn_of_other (hbegin : (call.isBegin && accepts server earlier call) = false) :
    begunIn server (call :: earlier) = begunIn server earlier := by
  cases call with
  | begin session => exact if_neg (ne_true_of_eq_false hbegin)
  | _ => rfl

/-- A transaction that is not ended was begun in a session. -/
theorem begunIn_of_unended {t : Handle} (h : unended server calls = some t) :
    ∃ session, begunIn server calls = some session := by
  induction calls with
  | nil => cases h
  | cons call earlier ih =>
    cases hbegin : call.isBegin && accepts server earlier call with
    | true =>
      obtain ⟨hbegin, haccept⟩ := Bool.and_eq_true_iff.mp hbegin
      cases call with
      | begin session => exact ⟨session, if_pos haccept⟩
      | _ => cases hbegin
    | false =>
      rw [begunIn_of_other hbegin]
      rw [unended, hbegin, if_neg Bool.false_ne_true] at h
      exact ih (Option.eq_some_of_filter_eq_some h)

/-- The handle of an open session is that of an earlier call. -/
theorem lt_of_mem_openSessions {session : Handle} (h : session ∈ openSessions server calls) :
    session < calls.length := by
  induction calls with
  | nil => cases h
  | cons call earlier ih =>
    rw [List.length_cons]
    refine Nat.lt_succ_iff.mpr ?_
    cases call with
    | openSession driver database =>
      rw [openSessions] at h
      split at h
      · rcases List.mem_cons.mp h with rfl | h
        · exact Nat.le_refl _
        · exact Nat.le_of_lt (ih h)
      · exact Nat.le_of_lt (ih h)
    | closeSession other =>
      rw [openSessions] at h
      split at h
      · exact Nat.le_of_lt (ih (List.mem_filter.mp h).1)
      · exact Nat.le_of_lt (ih h)
    | _ => exact Nat.le_of_lt (ih h)

/-- An open session stays open unless it is closed. -/
theorem mem_openSessions_cons {session : Handle} (h : session ∈ openSessions server earlier)
    (hcall : call = .closeSession session → accepts server earlier call = false) :
    session ∈ openSessions server (call :: earlier) := by
  cases call with
  | openSession driver database =>
    rw [openSessions]
    split
    · exact List.mem_cons_of_mem _ h
    · exact h
  | closeSession other =>
    rw [openSessions]
    split
    · rename_i haccept
      have hne : session ≠ other := by
        rintro rfl
        rw [hcall rfl] at haccept
        cases haccept
      exact List.mem_filter.mpr ⟨h, bne_iff_ne.mpr hne⟩
    · exact h
  | _ => exact h

/-- The calls in between neither begin nor use a transaction, and the one held stays. -/
structure Untouched (k k' : Link) : Prop where
  calls : ∃ more : List Call, (∀ call ∈ more, call.isBegin = false ∧ call.used? = none) ∧
    k'.calls = more ++ k.calls
  transaction : k'.transaction = k.transaction

namespace Untouched

variable {k k' k'' : Link}

theorem trans (h : Untouched k k') (h' : Untouched k' k'') : Untouched k k'' := by
  obtain ⟨⟨more, hmore, hcalls⟩, ht⟩ := h
  obtain ⟨⟨more', hmore', hcalls'⟩, ht'⟩ := h'
  exact ⟨⟨more' ++ more, List.forall_mem_append.mpr ⟨hmore', hmore⟩,
    by rw [hcalls', hcalls, List.append_assoc]⟩, ht'.trans ht⟩

theorem of_plainly (h : Plainly k k') : Untouched k k' := by
  obtain ⟨⟨more, hmore, hcalls⟩, ht⟩ := h
  exact ⟨⟨more, fun call hc => ⟨Call.isBegin_of_isPlain (hmore call hc),
    Call.used?_of_isPlain (hmore call hc)⟩, hcalls⟩, ht⟩

/-- A query of its own uses no transaction. -/
theorem of_maybeAlone {query : Value} {parameters : Parameters}
    (h : MaybeAlone query parameters k k') : Untouched k k' := by
  rcases h with h | ⟨between, session, h, h'⟩
  · exact .of_plainly h
  · let next : Link := ⟨between.session, between.transaction,
      .runAlone session query parameters :: between.calls⟩
    have halone : Untouched between next :=
      ⟨⟨[.runAlone session query parameters], List.forall_mem_singleton.mpr ⟨rfl, rfl⟩, rfl⟩, rfl⟩
    exact (of_plainly h).trans (halone.trans (of_plainly h'))

/-- What every such call keeps is kept. -/
theorem keeps (h : Untouched k k') {motive : List Call → Prop}
    (hstep : ∀ {call : Call} {earlier : List Call}, call.isBegin = false → call.used? = none →
      motive earlier → motive (call :: earlier)) (hk : motive k.calls) : motive k'.calls := by
  obtain ⟨⟨more, hmore, hcalls⟩, _⟩ := h
  rw [hcalls]
  clear hcalls
  induction more with
  | nil => exact hk
  | cons call more ih =>
    obtain ⟨⟨hbegin, hused⟩, hmore⟩ := List.forall_mem_cons.mp hmore
    exact hstep hbegin hused (ih hmore)

theorem unended (h : Untouched k k') : unended server k'.calls = unended server k.calls :=
  h.keeps (motive := fun calls => Graph.unended server calls = Graph.unended server k.calls)
    (fun hbegin hused hk => (unended_of_other (by rw [hbegin, Bool.false_and])
      (Call.ended?_of_unused hused)).trans hk) rfl

theorem begunIn (h : Untouched k k') : begunIn server k'.calls = begunIn server k.calls :=
  h.keeps (motive := fun calls => Graph.begunIn server calls = Graph.begunIn server k.calls)
    (fun hbegin _ hk => (begunIn_of_other (by rw [hbegin, Bool.false_and])).trans hk) rfl

theorem uses (h : Untouched k k') (hk : Uses P k.calls) : Uses P k'.calls :=
  h.keeps (fun _ hused hk => hk.cons fun t ht => by rw [hused] at ht; cases ht) hk

end Untouched

/-! ## 2. Sessions that are held -/

/-- The session that is held is open. -/
def Live (server : Server) (k : Link) : Prop :=
  ∀ session, k.session = some session → session ∈ openSessions server k.calls

theorem Live.of_none {k : Link} (h : k.session = none) : Live server k := fun session hs => by
  rw [h] at hs
  cases hs

theorem Live.cons {k : Link} (h : Live server k)
    (hcall : ∀ session, k.session = some session → call = .closeSession session →
      accepts server k.calls call = false) (transaction : Option Handle) :
    Live server ⟨k.session, transaction, call :: k.calls⟩ := fun session hs =>
  mem_openSessions_cons (h session hs) (hcall session hs)

/-- A call that closes no session leaves it open. -/
theorem Live.aside {k : Link} (h : Live server k) (call : Call)
    (hcall : ∀ session, call ≠ .closeSession session) :
    Live server ⟨k.session, k.transaction, call :: k.calls⟩ :=
  h.cons (fun session _ heq => absurd heq (hcall session)) k.transaction

theorem accepts_of_error {message : Text} (h : server earlier call = .error message) :
    accepts server earlier call = false := by
  rw [accepts, h]
  rfl

theorem accepts_of_ok {rows : List Row} (h : server earlier call = .ok rows) :
    accepts server earlier call = true := by
  rw [accepts, h]
  rfl

namespace Connection

variable (c : Connection)

theorem closeDriver_live (h : Live server c.link) : Live server (c.closeDriver server).2.link := by
  unfold closeDriver
  cases c.driver with
  | none => exact h
  | some driver =>
    dsimp only [send]
    have hlive := h.aside (.closeDriver driver) nofun
    cases server c.calls (.closeDriver driver) <;> exact hlive

theorem close_live (h : Live server c.link) : Live server (c.close server).2.link := by
  unfold close
  cases hs : c.session with
  | none => exact c.closeDriver_live h
  | some session =>
    cases ha : server c.calls (.closeSession session) with
    | error message =>
      simp only [send, ha]
      exact h.cons (fun _ _ _ => accepts_of_error ha) c.transaction
    | ok rows => simp only [send, ha]; exact closeDriver_live _ (.of_none rfl)

theorem giveUp_live (message : Text) (h : Live server c.link) :
    Live server (c.giveUp server message).2.link := by
  have hclose := c.close_live h
  unfold giveUp
  revert hclose
  rcases c.close server with ⟨_ | _, c'⟩ <;> exact id

theorem openSession_live (driver : Handle) (h : Live server c.link) :
    Live server (c.openSession server driver).2.link := by
  unfold openSession
  dsimp only [send]
  have hasked := h.aside (.openSession driver c.address.database) nofun
  cases ha : server c.calls (.openSession driver c.address.database) with
  | error message => exact giveUp_live _ message hasked
  | ok rows =>
    intro session hs
    cases hs
    refine List.mem_of_mem_head? ?_
    change (openSessions server (.openSession driver c.address.database :: c.calls)).head? = _
    rw [openSessions, if_pos (accepts_of_ok ha)]
    rfl

theorem checkDriver_live (driver : Handle) (h : Live server c.link) :
    Live server (c.checkDriver server driver).2.link := by
  have hverified := h.aside (.verify driver) nofun
  unfold checkDriver
  cases ha : server c.calls (.verify driver) with
  | error message => simp only [send, ha]; exact giveUp_live _ message hverified
  | ok rows => simp only [send, ha]; exact openSession_live _ driver hverified

/-- **Connecting leaves an open session**, or none. -/
theorem connect_live (h : Live server c.link) : Live server (c.connect server).2.link := by
  have hopened := h.aside
    (.openDriver c.address.uri c.address.user (credentials c.address.password)) nofun
  unfold connect
  cases ha : server c.calls (.openDriver c.address.uri c.address.user
      (credentials c.address.password)) with
  | error message => simp only [send, note, ha]; exact giveUp_live _ message hopened
  | ok rows => simp only [send, note, ha]; exact checkDriver_live _ _ hopened

theorem ensureSession_live (h : Live server c.link) : Live server (c.ensureSession server).2.link := by
  unfold ensureSession
  split
  · exact h
  · exact c.connect_live h

theorem ensureSession_plainly : Plainly c.link (c.ensureSession server).2.link := by
  unfold ensureSession
  split
  · exact .refl _
  · exact c.connect_plainly server

/-- Whoever has made sure of a session has one. -/
theorem session_of_ensured {c' : Connection} (h : c.ensureSession server = (.ok (), c')) :
    ∃ session, c'.session = some session := by
  unfold ensureSession at h
  split at h
  · rename_i hsession
    cases h
    exact Option.isSome_iff_exists.mp hsession
  · have hsession := c.connect_session server (congrArg Prod.fst h)
    rw [h] at hsession
    exact Option.isSome_iff_exists.mp hsession

/-- Connecting does not take the place of a session. -/
theorem ensureSession_of_session {session : Handle} (h : c.session = some session) :
    c.ensureSession server = (.ok (), c) := by
  rw [ensureSession, h]
  rfl

/-- The session of a query of its own is not the one held, which is open before. -/
theorem runAlone_live (driver : Handle) (query : Value) (parameters : Parameters)
    (h : Live server c.link) : Live server (c.runAlone server driver query parameters).2.link := by
  let lent := c.calls.length
  have hopened := h.aside (.openSession driver c.address.database) nofun
  have hclosed : Live server ⟨c.session, c.transaction, .closeSession lent ::
      .runAlone lent query parameters :: .openSession driver c.address.database :: c.calls⟩ := by
    refine (hopened.aside (.runAlone lent query parameters) nofun).cons (fun session hs heq => ?_) _
    -- the session that is closed has been opened just now, so it is not the one held
    cases heq
    exact absurd (lt_of_mem_openSessions (h lent hs)) (Nat.lt_irrefl _)
  unfold runAlone
  simp only [send, refusedStatement, nextHandle]
  cases server c.calls (.openSession driver c.address.database) with
  | error message => exact hopened
  | ok _ =>
    dsimp only
    cases server (.runAlone lent query parameters :: .openSession driver c.address.database :: c.calls)
        (.closeSession lent) with
    | error message => exact hclosed
    | ok _ =>
      cases server (.openSession driver c.address.database :: c.calls)
          (.runAlone lent query parameters) with
      | error message => exact hclosed
      | ok rows => exact hclosed

theorem execute_live (query : Value) (parameters : Parameters) (h : Live server c.link) :
    Live server (c.execute server query parameters).2.link := by
  have hensure : Live server (c.ensureDriver server).2.link := by
    unfold ensureDriver
    split
    · exact h
    · exact c.connect_live h
  unfold execute
  revert hensure
  rcases c.ensureDriver server with ⟨e | _, c'⟩
  · exact id
  · intro hensure
    dsimp only
    cases c'.driver with
    | none => exact hensure
    | some driver => exact c'.runAlone_live driver query parameters hensure

/-! ## 3. What needs a session -/

theorem run_of_refused {e : Error} {c' : Connection} (h : c.ensureSession server = (.error e, c'))
    (query : Value) (parameters : Parameters) : c.run server query parameters = (.error e, c') := by
  rw [run, h]

/-- Once there is a session, a statement is run in it. -/
theorem run_of_ensured {c' : Connection} (h : c.ensureSession server = (.ok (), c')) (query : Value)
    (parameters : Parameters) : c.run server query parameters = c'.run server query parameters := by
  obtain ⟨session, hsession⟩ := c.session_of_ensured h
  rw [run, h, run, ensureSession_of_session c' hsession]

theorem begin_of_refused {e : Error} {c' : Connection} (h : c.ensureSession server = (.error e, c')) :
    c.begin server = (.error e, c') := by
  rw [begin, h]

/-- Once there is a session, a transaction is begun in it. -/
theorem begin_of_ensured {c' : Connection} (h : c.ensureSession server = (.ok (), c')) :
    c.begin server = c'.begin server := by
  obtain ⟨session, hsession⟩ := c.session_of_ensured h
  rw [begin, h, begin, ensureSession_of_session c' hsession]

end Connection

/-- A session has a call for every statement. -/
theorem Link.call?_of_session {k : Link} {session : Handle} (h : k.session = some session)
    (st : Statement) : k.call? st = some (match k.transaction with
      | some t => .run t st.query st.parameters
      | none => .runAlone session st.query st.parameters) := by
  unfold Link.call?
  cases k.transaction with
  | none => rw [h]; rfl
  | some t => rfl

/-- That call is sent to the transaction that is held, if to any. It begins and ends none, and closes
    no session. -/
theorem Link.uses_of_call? {k : Link} {st : Statement} (h : k.call? st = some call) :
    call.isBegin = false ∧ call.ended? = none ∧ (∀ session, call ≠ .closeSession session) ∧
      ∀ t, call.used? = some t → k.transaction = some t := by
  unfold Link.call? at h
  cases ht : k.transaction with
  | none =>
    rw [ht] at h
    obtain ⟨session, _, rfl⟩ := Option.map_eq_some_iff.mp h
    exact ⟨rfl, rfl, nofun, nofun⟩
  | some t =>
    rw [ht] at h
    cases h
    exact ⟨rfl, rfl, nofun, fun _ => id⟩

end GraphFeed.Graph
