import GraphFeed.Error
import GraphFeed.Host
import GraphFeed.Log

/-!
# Work in batches

A list of items is worked off in batches. The work on an item answers or fails; items that fail are
listed with their failure and left out of the results, and the others keep their order.

Items of a batch are worked on one after the other, or in a pool of workers, in which they finish in
any order (`pooled`). The pool hands in its outcomes in the order of the items all the same, so the
order in which they finish can be seen in the history alone.

`process` returns what has happened, the oldest event first, and the report. The log is made from
the events.
-/

namespace GraphFeed.Batch

/-! ## 1. Plans -/

/-- How the items of a batch are worked off. -/
inductive Strategy
  | sequential
  | parallel
deriving DecidableEq, Repr

/-- The strategy of a name. -/
def Strategy.ofName (name : Text) : Except Error Strategy :=
  if name = Text.ofString "sequential" then .ok .sequential
  else if name = Text.ofString "parallel" then .ok .parallel
  else .error (.unknownStrategy name)

/-- The part of the program that logs the work of a strategy. -/
def Strategy.source : Strategy → Source
  | .sequential => .sequentialBatches
  | .parallel => .parallelBatches

/-- The size of batches where none is given. -/
def defaultSize : Value := .int 100

/-- A strategy with the size of the batches and the number of workers. Both are values, because
    both may be settings that nobody has checked. -/
structure Plan where
  strategy : Strategy
  size : Value
  workers : Value

/-- The plan with the given size and number of workers, where zero and null are no number of workers:
    then there are as many as processors. -/
def Plan.of (processors : Option Nat) (strategy : Strategy) (size workers : Value) : Plan :=
  ⟨strategy, size, if workers.isTrue then workers else .int (workersFor processors)⟩

/-! ## 2. Batches -/

variable {ι ρ ε : Type}

/-- The items in pieces of `size`, the last of which may be shorter. A size of zero counts as one. -/
def chunks (size : Nat) (items : List ι) : List (List ι) :=
  match items with
  | [] => []
  | item :: rest => (item :: rest.take (size - 1)) :: chunks size (rest.drop (size - 1))
termination_by items.length
decreasing_by simp only [List.length_cons, List.length_drop]; omega

/-- **The pieces are the items.** -/
theorem flatten_chunks (size : Nat) (items : List ι) : (chunks size items).flatten = items := by
  fun_induction chunks size items with
  | case1 => rfl
  | case2 item rest ih =>
    rw [List.flatten_cons, ih]
    simp

theorem ne_nil_of_mem_chunks {size : Nat} {items piece : List ι} (h : piece ∈ chunks size items) :
    piece ≠ [] := by
  fun_induction chunks size items with
  | case1 => exact absurd h List.not_mem_nil
  | case2 item rest ih =>
    rcases List.mem_cons.mp h with rfl | h
    · exact List.cons_ne_nil _ _
    · exact ih h

/-- The batches of the items. A size of zero is refused, and a negative one makes no batches. -/
def batches (size : Value) (items : List ι) : Except Error (List (List ι)) :=
  match size.index with
  | .error kind => .error (.notAnIndex kind)
  | .ok n =>
    if n = 0 then .error .zeroBatchSize
    else if n < 0 then .ok []
    else .ok (chunks n.toNat items)

/-! ## 3. One batch -/

/-- What happens while items are worked off. -/
inductive Event (ι ρ ε : Type)
  | started (items batches : Nat)
  /-- The work on an item is done. -/
  | ran (item : ι)
  /-- A failure is listed. -/
  | failed (item : ι) (error : ε)
  /-- A batch is complete. -/
  | completed (index : Nat) (results : List ρ)

/-- The results and the failures of a batch, with what has happened. -/
structure Outcome (ι ρ ε : Type) where
  history : List (Event ι ρ ε)
  results : List ρ
  errors : List (ι × ε)

/-- Works off items one after the other. -/
def inTurn (work : ι → Except ε ρ) : List ι → Outcome ι ρ ε
  | [] => ⟨[], [], []⟩
  | item :: rest =>
    let after := inTurn work rest
    match work item with
    | .ok result => ⟨.ran item :: after.history, result :: after.results, after.errors⟩
    | .error e =>
      ⟨.ran item :: .failed item e :: after.history, after.results, (item, e) :: after.errors⟩

/-- Collects the outcomes of items. -/
def collect : List (ι × Except ε ρ) → Outcome ι ρ ε
  | [] => ⟨[], [], []⟩
  | (item, outcome) :: rest =>
    let after := collect rest
    match outcome with
    | .ok result => ⟨after.history, result :: after.results, after.errors⟩
    | .error e => ⟨.failed item e :: after.history, after.results, (item, e) :: after.errors⟩

/-- What workers have finished, by the position of the item, in the order of finishing. -/
def finished (work : ι → Except ε ρ) (order : List Nat) (batch : List ι) :
    List (Nat × ι × Except ε ρ) :=
  order.filterMap fun i => batch[i]?.map fun item => (i, item, work item)

/-- The outcome of the item at a position: what a worker has finished, and otherwise what the work
    makes of the item when it is waited for. -/
def outcomeAt (work : ι → Except ε ρ) (done : List (Nat × ι × Except ε ρ)) (item : ι) (i : Nat) :
    Except ε ρ :=
  match done.find? fun d => d.1 = i with
  | some (_, _, outcome) => outcome
  | none => work item

/-- Works off items in a pool in which they finish in the given order of positions. An item is
    waited for when its turn comes to be collected. -/
def pooled (work : ι → Except ε ρ) (order : List Nat) (batch : List ι) : Outcome ι ρ ε :=
  let done := finished work order batch
  let collected := collect (batch.zipIdx.map fun d => (d.1, outcomeAt work done d.1 d.2))
  { collected with history := done.map (fun d => .ran d.2.1) ++ collected.history }

/-- Refuses a number of workers that is zero or less. -/
def checkWorkers (workers : Value) : Except Error Unit :=
  match workers.compareInt 0 with
  | .ok (some .lt) | .ok (some .eq) => .error .noWorkers
  | .ok _ => .ok ()
  | .error kind => .error (.incomparable .lessOrEqual kind)

/-- Works off one batch. -/
def Plan.batch (plan : Plan) (work : ι → Except ε ρ) (order : List Nat) (items : List ι) :
    Except Error (Outcome ι ρ ε) :=
  match plan.strategy with
  | .sequential => .ok (inTurn work items)
  | .parallel => (checkWorkers plan.workers).map fun _ => pooled work order items

/-! ## 4. All batches -/

/-- The results of each batch and all failures. -/
structure Report (ι ρ ε : Type) where
  items : Nat
  batches : List (List ρ)
  errors : List (ι × ε)

/-- The results of all batches. -/
def Report.results (r : Report ι ρ ε) : List ρ := r.batches.flatten

/-- What has happened, and the report if the work was not refused. -/
structure Run (ι ρ ε : Type) where
  history : List (Event ι ρ ε)
  report : Except Error (Report ι ρ ε)

/-- Works off batches from number `index` on: what has happened, and the results of each batch with
    all failures. -/
def Plan.batches (plan : Plan) (work : ι → Except ε ρ) (orders : Nat → List Nat) (index : Nat) :
    List (List ι) → List (Event ι ρ ε) × Except Error (List (List ρ) × List (ι × ε))
  | [] => ([], .ok ([], []))
  | items :: rest =>
    match plan.batch work (orders index) items with
    | .error e => ([], .error e)
    | .ok outcome =>
      let (history, after) := plan.batches work orders (index + 1) rest
      (outcome.history ++ .completed index outcome.results :: history,
        after.map fun (results, errors) => (outcome.results :: results, outcome.errors ++ errors))

/-- Works off items. `orders` tells for each batch in which order its items finish in a pool. -/
def Plan.process (plan : Plan) (work : ι → Except ε ρ) (orders : Nat → List Nat) (items : List ι) :
    Run ι ρ ε :=
  match Batch.batches plan.size items with
  | .error e => ⟨[], .error e⟩
  | .ok parts =>
    let (history, after) := plan.batches work orders 0 parts
    ⟨.started items.length parts.length :: history,
      after.map fun (results, errors) => ⟨items.length, results, errors⟩⟩

/-- Items finish in the order in which they are listed. -/
def inOrder (size : Nat) : Nat → List Nat := fun _ => List.range size

/-! ## 5. Log -/

/-- The log of an event. What the work on an item logs is told by `work`. -/
def Event.log (source : Source) (work : ι → List LogRecord) (message : ε → Text) :
    Event ι ρ ε → List LogRecord
  | .started items batches =>
    [⟨.debug, source, .concat ["Processing ", Text.ofNat items, " items in ", Text.ofNat batches,
      " batches"]⟩]
  | .ran item => work item
  | .failed _ e => [⟨.debug, source, "Error processing item: " ++ message e⟩]
  | .completed index results =>
    [⟨.debug, source, .concat ["Completed batch ", Text.ofNat index, " with ",
      Text.ofNat results.length, " results"]⟩]

end GraphFeed.Batch
