import GraphFeed.Error
import GraphFeed.Graph.Call
import GraphFeed.Log
import GraphFeed.Value.Literal

/-!
# Connections

A `Connection` holds at most one driver, one session and one transaction, and remembers what it has
sent (`calls`) and logged (`log`), the latest first. Its operations are functions on it; every one
of them returns how it ended together with the connection afterwards, because a refused call does
not undo the calls before it.

* `connect` opens a driver and a session; if something is refused, it closes what is open.
* `begin`, `run` and `execute` connect first if they need to.
* `run` uses the transaction if there is one, and the session otherwise.
* `commit` and `rollback` do nothing without a transaction, and forget it whatever the database says.
* `close` closes the session and then the driver. A session that cannot be closed is kept, and the
  driver with it.
-/

namespace GraphFeed.Graph

/-! ## 1. The connection -/

/-- Where and as whom to connect. -/
structure Address where
  uri : Value
  user : Value
  password : Value
  database : Value

/-- The address that some values stand for. A value that is null or empty is taken from the
    environment, and from the defaults if it is not there either. -/
def Address.of (uri user password database : Value) (lookup : Text → Option Text) : Address :=
  let choose (v : Value) (name default : Text) : Value :=
    if v.isTrue then v else .text ((lookup name).getD default)
  { uri := choose uri "NEO4J_URI" "bolt://localhost:7687"
    user := choose user "NEO4J_USER" "neo4j"
    password := choose password "NEO4J_PASSWORD" "password"
    database := choose database "NEO4J_DATABASE" "neo4j" }

/-- A connection to the database, open or not. -/
structure Connection where
  address : Address
  driver : Option Handle
  session : Option Handle
  transaction : Option Handle
  calls : List Call
  log : List LogRecord

namespace Connection

/-- A connection that is not open. -/
def closed (address : Address) : Connection := ⟨address, none, none, none, [], []⟩

/-- Logs a message. -/
def note (c : Connection) (level : Level) (message : Text) : Connection :=
  { c with log := ⟨level, .connection, message⟩ :: c.log }

/-- The handle of what the next call opens. -/
def nextHandle (c : Connection) : Handle := c.calls.length

/-- Sends a call: the answer, and the connection that remembers it. -/
def send (server : Server) (call : Call) (c : Connection) : Except Text (List Row) × Connection :=
  (server c.calls call, { c with calls := call :: c.calls })

@[simp] theorem send_snd (server : Server) (call : Call) (c : Connection) :
    (send server call c).2 = { c with calls := call :: c.calls } := rfl

/-- The credentials of a driver: an empty password is no password. -/
def credentials (password : Value) : Value := if password.isTrue then password else .null

/-! ## 2. Opening and closing -/

/-- Closes the driver. -/
def closeDriver (server : Server) (c : Connection) : Except Error Unit × Connection :=
  match c.driver with
  | none => (.ok (), c)
  | some driver =>
    match c.send server (.closeDriver driver) with
    | (.error message, c) => (.error (.refused message), c)
    | (.ok _, c) => (.ok (), { c with driver := none })

/-- Closes the session and the driver. -/
def close (server : Server) (c : Connection) : Except Error Unit × Connection :=
  match c.session with
  | none => c.closeDriver server
  | some session =>
    match c.send server (.closeSession session) with
    | (.error message, c) => (.error (.refused message), c)
    | (.ok _, c) => closeDriver server { c with session := none }

/-- What a refusal while connecting leads to: everything is closed. -/
def giveUp (server : Server) (message : Text) (c : Connection) : Except Error Unit × Connection :=
  match c.close server with
  | (.error e, c) => (.error e, c)
  | (.ok _, c) => (.error (.write (.connecting c.address.uri.shown) message), c)

/-- Opens a session of a driver. -/
def openSession (server : Server) (driver : Handle) (c : Connection) :
    Except Error Unit × Connection :=
  let session := c.nextHandle
  match c.send server (.openSession driver c.address.database) with
  | (.error message, c) => c.giveUp server message
  | (.ok _, c) =>
    (.ok (), { c with session := some session }.note .info
      ("Connected to Neo4j at " ++ c.address.uri.shown))

/-- Checks a driver and opens a session of it. -/
def checkDriver (server : Server) (driver : Handle) (c : Connection) :
    Except Error Unit × Connection :=
  match c.send server (.verify driver) with
  | (.error message, c) => c.giveUp server message
  | (.ok _, c) => c.openSession server driver

/-- Opens a driver and a session. -/
def connect (server : Server) (c : Connection) : Except Error Unit × Connection :=
  let c := c.note .debug ("Connecting to Neo4j @ " ++ c.address.uri.shown)
  let driver := c.nextHandle
  match c.send server (.openDriver c.address.uri c.address.user (credentials c.address.password)) with
  | (.error message, c) => c.giveUp server message
  | (.ok _, c) => checkDriver server driver { c with driver := some driver }

/-- Connects unless there is a session. -/
def ensureSession (server : Server) (c : Connection) : Except Error Unit × Connection :=
  if c.session.isSome then (.ok (), c) else c.connect server

/-- Connects unless there is a driver. -/
def ensureDriver (server : Server) (c : Connection) : Except Error Unit × Connection :=
  if c.driver.isSome then (.ok (), c) else c.connect server

/-! ## 3. Transactions -/

/-- Begins a transaction, which takes the place of the one before. -/
def begin (server : Server) (c : Connection) : Except Error Unit × Connection :=
  match c.ensureSession server with
  | (.error e, c) => (.error e, c)
  | (.ok _, c) =>
    match c.session with
    | none => (.ok (), c)
    | some session =>
      let transaction := c.nextHandle
      match c.send server (.begin session) with
      | (.error message, c) => (.error (.refused message), c)
      | (.ok _, c) => (.ok (), { c with transaction := some transaction })

/-- Commits the transaction if there is one. -/
def commit (server : Server) (c : Connection) : Except Error Unit × Connection :=
  match c.transaction with
  | none => (.ok (), c)
  | some transaction =>
    match c.send server (.commit transaction) with
    | (.error message, c) => (.error (.write .committing message), { c with transaction := none })
    | (.ok _, c) => (.ok (), { c with transaction := none })

/-- Takes the transaction back if there is one. That it cannot be taken back is logged. -/
def rollback (server : Server) (c : Connection) : Connection :=
  match c.transaction with
  | none => c
  | some transaction =>
    match c.send server (.rollback transaction) with
    | (.error message, c) =>
      { c.note .warning ("Rollback failed: " ++ message) with transaction := none }
    | (.ok _, c) => { c with transaction := none }

/-! ## 4. Statements -/

/-- Lists a refused statement. -/
def refusedStatement (message : Text) (c : Connection) : Except Error (List Row) × Connection :=
  (.error (.write .statement message), c.note .error ("Error executing Cypher query: " ++ message))

/-- The call that runs a statement: in the transaction if there is one, and otherwise in the
    session. -/
def statementCall? (query : Value) (parameters : Parameters) (c : Connection) : Option Call :=
  match c.transaction with
  | some transaction => some (.run transaction query parameters)
  | none => c.session.map fun session => .runAlone session query parameters

/-- Runs a statement. -/
def run (server : Server) (query : Value) (parameters : Parameters) (c : Connection) :
    Except Error (List Row) × Connection :=
  match c.ensureSession server with
  | (.error e, c) => (.error e, c)
  | (.ok _, c) =>
    match c.statementCall? query parameters with
    | none => (.ok [], c)
    | some call =>
      match c.send server call with
      | (.error message, c) => c.refusedStatement message
      | (.ok rows, c) => (.ok rows, c)

/-- Runs a statement in a new session of a driver, which is closed afterwards. -/
def runAlone (server : Server) (driver : Handle) (query : Value) (parameters : Parameters)
    (c : Connection) : Except Error (List Row) × Connection :=
  let session := c.nextHandle
  match c.send server (.openSession driver c.address.database) with
  | (.error message, c) => c.refusedStatement message
  | (.ok _, c) =>
    match c.send server (.runAlone session query parameters) with
    | (answer, c) =>
      match c.send server (.closeSession session), answer with
      | (.error message, c), _ => c.refusedStatement message
      | (.ok _, c), .error message => c.refusedStatement message
      | (.ok _, c), .ok rows => (.ok rows, c)

/-- Runs a statement in a session of its own. -/
def execute (server : Server) (query : Value) (parameters : Parameters) (c : Connection) :
    Except Error (List Row) × Connection :=
  match c.ensureDriver server with
  | (.error e, c) => (.error e, c)
  | (.ok _, c) =>
    match c.driver with
    | none => (.ok [], c)
    | some driver => c.runAlone server driver query parameters

end Connection

end GraphFeed.Graph
