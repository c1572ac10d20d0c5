import GraphFeed.Value.Basic

/-!
# Calls of the database

A database is used through drivers, the sessions of a driver and the transactions of a session. A
`Call` is one request; the calls that open something give it a `Handle`, which later calls name.

The database itself is a `Server`: whatever it answers to a call may depend on all calls before it.
It refuses a call by a text. No more is assumed of it.
-/

namespace GraphFeed.Graph

/-- What names a driver, a session or a transaction: the number of calls before the one that opened
    it. -/
abbrev Handle := Nat

/-- A request to the database. -/
inductive Call
  | openDriver (uri user password : Value)
  | verify (driver : Handle)
  | openSession (driver : Handle) (database : Value)
  | begin (session : Handle)
  /-- Runs a statement in a transaction. The query is sent as it is, be it a text or not. -/
  | run (transaction : Handle) (query : Value) (parameters : Parameters)
  /-- Runs a statement in a session, which commits it at once. -/
  | runAlone (session : Handle) (query : Value) (parameters : Parameters)
  | commit (transaction : Handle)
  | rollback (transaction : Handle)
  | closeSession (session : Handle)
  | closeDriver (driver : Handle)

namespace Call

/-- The call runs a statement. -/
def isStatement : Call → Bool
  | run .. | runAlone .. => true
  | _ => false

end Call

/-- A record of an answer. -/
abbrev Row := Value

/-- The database: its answer to a call after the calls before it, the latest first. A call that
    runs no statement is answered by no rows. -/
abbrev Server := List Call → Call → Except Text (List Row)

end GraphFeed.Graph
