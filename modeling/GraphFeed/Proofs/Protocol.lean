import GraphFeed.Graph.Connection
import GraphFeed.Statement.Basic

/-!
# The protocol of a transaction

What a history of calls says about its one transaction: whether it has been begun (`opened`), what
has been sent in it (`sent`), whether a statement of it was refused (`refused`) and whether it has
been committed (`committed`). Histories have the latest call first, as those of connections do.

`Step` says which calls may be sent at which stage of a transaction, and `Protocol` which histories
consist of such calls. Where a call opens something, the answer decides on the stage that follows.

* `Step.describes`, `Protocol.describes`: a stage counts what its history holds, one call at a time
  and therefore over the whole history;
* `Protocol.split`: every call of a history was allowed at the stage before it;
* `Protocol.run_inside`, `Protocol.runAlone_after`, `Protocol.sent_eq_nil`: where statements are run.
-/

namespace GraphFeed.Graph

/-! ## 1. Calls and their histories -/

namespace Call

/-- The call opens, checks or closes a driver or a session. -/
def isPlain : Call → Bool
  | openDriver .. | verify _ | openSession .. | closeSession _ | closeDriver _ => true
  | _ => false

/-- The call begins a transaction. -/
def isBegin : Call → Bool
  | begin _ => true
  | _ => false

/-- The call runs a statement in a transaction. -/
def isRun : Call → Bool
  | run .. => true
  | _ => false

/-- The call runs a statement outside of transactions. -/
def isAlone : Call → Bool
  | runAlone .. => true
  | _ => false

/-- The call commits a transaction. -/
def isCommit : Call → Bool
  | commit _ => true
  | _ => false

/-- The call ends a transaction. -/
def isEnd : Call → Bool
  | commit _ | rollback _ => true
  | _ => false

theorem isRun_of_isPlain {call : Call} (h : call.isPlain = true) : call.isRun = false := by
  cases call <;> first | rfl | cases h

theorem isBegin_of_isPlain {call : Call} (h : call.isPlain = true) : call.isBegin = false := by
  cases call <;> first | rfl | cases h

end Call

variable (server : Server)

/-- The server has answered a call well. -/
def accepts (earlier : List Call) (call : Call) : Bool := (server earlier call).toBool

/-- The transaction that was begun last. -/
def opened : List Call → Option Handle
  | [] => none
  | call :: earlier =>
    if call.isBegin && accepts server earlier call then some earlier.length else opened earlier

/-- A statement was refused in a transaction. -/
def refused : List Call → Bool
  | [] => false
  | call :: earlier => (call.isRun && !accepts server earlier call) || refused earlier

/-- A transaction was committed. -/
def committed : List Call → Bool
  | [] => false
  | call :: earlier => (call.isCommit && accepts server earlier call) || committed earlier

/-- What a call asks to be run: a query, which may be any value, and the values of its parameters. -/
structure Request where
  query : Value
  parameters : Parameters

/-- A statement is sent as the request of its query and its parameters. -/
instance : Coe Statement Request := ⟨fun st => ⟨st.query, st.parameters⟩⟩

/-- What was asked to be run in transactions, in its order. -/
def sent : List Call → List Request
  | [] => []
  | .run _ query parameters :: earlier => sent earlier ++ [⟨query, parameters⟩]
  | _ :: earlier => sent earlier

variable {server} {call : Call} {earlier : List Call}

theorem sent_of_notRun (h : call.isRun = false) : sent (call :: earlier) = sent earlier := by
  cases call with
  | run => cases h
  | _ => rfl

theorem refused_of_notRun (h : call.isRun = false) :
    refused server (call :: earlier) = refused server earlier := by
  rw [refused, h, Bool.false_and, Bool.false_or]

theorem opened_of_notBegin (h : call.isBegin = false) :
    opened server (call :: earlier) = opened server earlier := by
  rw [opened, h, Bool.false_and]
  rfl

/-! ## 2. Stages -/

/-- How far the one transaction of a history is. -/
inductive Stage
  | unopened
  /-- The transaction could not be begun. -/
  | unbegun
  | open (transaction : Handle)
  | committed (transaction : Handle)
  /-- The transaction was committed, and the query at the end was sent. -/
  | queried (transaction : Handle)
  /-- The transaction was rolled back, or could not be committed. -/
  | ended (transaction : Handle)

namespace Stage

/-- The transaction that was begun. -/
def transaction? : Stage → Option Handle
  | unopened | unbegun => none
  | .open t | committed t | queried t | ended t => some t

/-- How often a transaction was to be begun. -/
def begins : Stage → Nat
  | unopened => 0
  | _ => 1

/-- How often the transaction was to be ended. -/
def ends : Stage → Nat
  | unopened | unbegun | .open _ => 0
  | committed _ | queried _ | ended _ => 1

/-- How many statements were sent outside of the transaction. -/
def alone : Stage → Nat
  | queried _ => 1
  | _ => 0

/-- The transaction was committed. -/
def isCommitted : Stage → Bool
  | committed _ | queried _ => true
  | _ => false

end Stage

/-- The calls that are allowed at a stage, and the stages they lead to. Only `query` may be run
    outside of the transaction. -/
inductive Step (server : Server) (query : Option Value) (earlier : List Call) :
    Stage → Call → Stage → Prop
  | plain {s : Stage} {call : Call} (h : call.isPlain = true) : Step server query earlier s call s
  | begin (session : Handle) (h : accepts server earlier (.begin session) = true) :
      Step server query earlier .unopened (.begin session) (.open earlier.length)
  | beginRefused (session : Handle) (h : accepts server earlier (.begin session) = false) :
      Step server query earlier .unopened (.begin session) .unbegun
  | run (t : Handle) (statement : Value) (parameters : Parameters) :
      Step server query earlier (.open t) (.run t statement parameters) (.open t)
  | commit (t : Handle) (h : accepts server earlier (.commit t) = true) :
      Step server query earlier (.open t) (.commit t) (.committed t)
  | commitRefused (t : Handle) (h : accepts server earlier (.commit t) = false) :
      Step server query earlier (.open t) (.commit t) (.ended t)
  | rollback (t : Handle) : Step server query earlier (.open t) (.rollback t) (.ended t)
  | queryAlone (t session : Handle) (last : Value) (h : query = some last) :
      Step server query earlier (.committed t) (.runAlone session last []) (.queried t)

/-- The histories that keep to the protocol, with the stage they have come to. -/
inductive Protocol (server : Server) (query : Option Value) : Stage → List Call → Prop
  | start : Protocol server query .unopened []
  | call {s s' : Stage} {earlier : List Call} {call : Call} (h : Protocol server query s earlier)
      (hs : Step server query earlier s call s') : Protocol server query s' (call :: earlier)

/-! ## 3. What a stage tells about its history -/

/-- The stage counts what the history holds. -/
structure Describes (server : Server) (s : Stage) (calls : List Call) : Prop where
  opened : opened server calls = s.transaction?
  begins : calls.countP Call.isBegin = s.begins
  ends : calls.countP Call.isEnd = s.ends
  alone : calls.countP Call.isAlone = s.alone
  committed : committed server calls = s.isCommitted

variable {query : Option Value} {s s' : Stage} {calls : List Call}

theorem Describes.plain (h : Describes server s earlier) (hplain : call.isPlain = true) :
    Describes server s (call :: earlier) := by
  cases call with
  | begin | run | runAlone | commit | rollback => cases hplain
  | _ => exact ⟨h.opened, h.begins, h.ends, h.alone, h.committed⟩

theorem countP_cons_one {test : Call → Bool} {n : Nat} (htest : test call = true)
    (h : earlier.countP test = n) : (call :: earlier).countP test = n + 1 := by
  rw [List.countP_cons_of_pos htest, h]

/-- **A step keeps the count.** -/
theorem Step.describes (hs : Step server query earlier s call s')
    (h : Describes server s earlier) : Describes server s' (call :: earlier) := by
  obtain ⟨hopened, hbegins, hends, halone, hcommitted⟩ := h
  cases hs with
  | plain hplain => exact Describes.plain ⟨hopened, hbegins, hends, halone, hcommitted⟩ hplain
  | begin session haccept =>
    refine ⟨?_, countP_cons_one rfl hbegins, hends, halone, hcommitted⟩
    rw [opened, haccept]
    rfl
  | beginRefused session hrefuse =>
    refine ⟨?_, countP_cons_one rfl hbegins, hends, halone, hcommitted⟩
    rw [opened, hrefuse]
    exact hopened
  | run t statement parameters => exact ⟨hopened, hbegins, hends, halone, hcommitted⟩
  | commit t haccept =>
    refine ⟨hopened, hbegins, countP_cons_one rfl hends, halone, ?_⟩
    rw [Graph.committed, haccept]
    rfl
  | commitRefused t hrefuse =>
    refine ⟨hopened, hbegins, countP_cons_one rfl hends, halone, ?_⟩
    rw [Graph.committed, hrefuse]
    exact hcommitted
  | rollback t => exact ⟨hopened, hbegins, countP_cons_one rfl hends, halone, hcommitted⟩
  | queryAlone t session last hlast =>
    exact ⟨hopened, hbegins, hends, countP_cons_one rfl halone, hcommitted⟩

namespace Protocol

/-- **The stage that a history has come to counts what the history holds.** -/
theorem describes (h : Protocol server query s calls) : Describes server s calls := by
  induction h with
  | start => exact ⟨rfl, rfl, rfl, rfl, rfl⟩
  | call _ hs ih => exact hs.describes ih

/-- **Every call was allowed when it was sent.** -/
theorem split {later : List Call} (h : Protocol server query s (later ++ call :: earlier)) :
    ∃ before after, Protocol server query before earlier ∧
      Step server query earlier before call after := by
  induction later generalizing s with
  | nil =>
    cases h with
    | call h hs => exact ⟨_, _, h, hs⟩
  | cons _ later ih =>
    cases h with
    | call h _ => exact ih h

/-- **Statements of a transaction are run after it is begun and before it is ended.** -/
theorem run_inside {later : List Call} {t : Handle} {statement : Value} {parameters : Parameters}
    (h : Protocol server query s (later ++ .run t statement parameters :: earlier)) :
    opened server earlier = some t ∧ earlier.countP Call.isEnd = 0 := by
  obtain ⟨before, after, hbefore, hs⟩ := h.split
  cases hs with
  | plain hplain => cases hplain
  | run t _ _ => exact ⟨hbefore.describes.opened, hbefore.describes.ends⟩

/-- **Only the query at the end is run outside of the transaction**, after it was committed. -/
theorem runAlone_after {later : List Call} {session : Handle} {statement : Value}
    {parameters : Parameters}
    (h : Protocol server query s (later ++ .runAlone session statement parameters :: earlier)) :
    query = some statement ∧ parameters = [] ∧ committed server earlier = true := by
  obtain ⟨before, after, hbefore, hs⟩ := h.split
  cases hs with
  | plain hplain => cases hplain
  | queryAlone t _ _ hlast => exact ⟨hlast, rfl, hbefore.describes.committed⟩

/-- Before a transaction is begun, nothing is sent in one. -/
theorem sent_eq_nil (h : Protocol server query s calls) (hs : s.transaction? = none) :
    sent calls = [] := by
  induction h with
  | start => rfl
  | call _ hstep ih =>
    cases hstep with
    | plain hplain => exact (sent_of_notRun (Call.isRun_of_isPlain hplain)).trans (ih hs)
    | beginRefused session _ => exact ih rfl
    | begin | run | commit | commitRefused | rollback | queryAlone => cases hs

theorem ends_le_one (h : Protocol server query s calls) : calls.countP Call.isEnd ≤ 1 := by
  rw [h.describes.ends]
  cases s <;> simp [Stage.ends]

theorem begins_le_one (h : Protocol server query s calls) : calls.countP Call.isBegin ≤ 1 := by
  rw [h.describes.begins]
  cases s <;> simp [Stage.begins]

theorem alone_le_one (h : Protocol server query s calls) : calls.countP Call.isAlone ≤ 1 := by
  rw [h.describes.alone]
  cases s <;> simp [Stage.alone]

/-- As long as the transaction is not ended, nothing was committed. -/
theorem commit_notMem (h : Protocol server query s calls) (hends : s.ends = 0) (t : Handle) :
    .commit t ∉ calls := by
  intro hmem
  have hpos : 0 < calls.countP Call.isEnd := List.countP_pos_iff.mpr ⟨_, hmem, rfl⟩
  rw [h.describes.ends, hends] at hpos
  exact Nat.lt_irrefl 0 hpos

end Protocol

end GraphFeed.Graph
