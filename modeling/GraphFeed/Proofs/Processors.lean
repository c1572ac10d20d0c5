import GraphFeed.Proofs.Batches

/-!
# Processors that are called again

A processor works off one list of items after the other. It holds the answers and failures of its
last call; every call begins with empty lists, adds what each batch yields, and returns what the
lists hold in the end.

* `Processor.call_process`: whatever it holds, a call does what `Plan.process` does;
* `ran_process`, `completions_process`: what the history of a call says. Workers that finish in some
  order have worked on each item of their batch once (`Finishes`);
* `call_partition`: **a call is an order-preserving partition of its items**, whatever calls were made
  before, and the same for every strategy.
-/

namespace GraphFeed.Batch

variable {ι ρ ε : Type}

/-! ## 1. Processors -/

/-- What a processor is called with. -/
structure Job (ι ρ ε : Type) where
  work : ι → Except ε ρ
  items : List ι
  /-- For each batch, the positions of its items in the order in which workers finish them. -/
  orders : Nat → List Nat

/-- What a call returns: answers and failures, and how many of them there are. -/
structure Summary (ι ρ ε : Type) where
  results : List ρ
  processed : Nat
  items : Nat
  errors : List (ι × ε)
  failures : Nat

/-- A processor works by a plan. It holds the answers and failures of its last call. -/
structure Processor (ι ρ ε : Type) where
  plan : Plan
  results : List ρ
  errors : List (ι × ε)

/-- What has happened, what is returned, and the processor as it is left. -/
structure Done (ι ρ ε α : Type) where
  history : List (Event ι ρ ε)
  returned : Except Error α
  left : Processor ι ρ ε

namespace Processor

/-- A processor that has not been called. -/
def new (plan : Plan) : Processor ι ρ ε := ⟨plan, [], []⟩

/-- Holds what a batch has yielded, too. -/
def add (p : Processor ι ρ ε) (outcome : Outcome ι ρ ε) : Processor ι ρ ε :=
  { p with results := p.results ++ outcome.results, errors := p.errors ++ outcome.errors }

/-- Works off batches from number `index` on. -/
def batches (job : Job ι ρ ε) (index : Nat) (p : Processor ι ρ ε) :
    List (List ι) → Done ι ρ ε Unit
  | [] => ⟨[], .ok (), p⟩
  | items :: rest =>
    match p.plan.batch job.work (job.orders index) items with
    | .error e => ⟨[], .error e, p⟩
    | .ok outcome =>
      let after := batches job (index + 1) (p.add outcome) rest
      { after with
        history := outcome.history ++ .completed index outcome.results :: after.history }

/-- What is held, with the number of items it comes from. -/
def summary (p : Processor ι ρ ε) (items : Nat) : Summary ι ρ ε :=
  ⟨p.results, p.results.length, items, p.errors, p.errors.length⟩

/-- Works off the items of a job. -/
def call (p : Processor ι ρ ε) (job : Job ι ρ ε) : Done ι ρ ε (Summary ι ρ ε) :=
  let p := { p with results := [], errors := [] }
  match Batch.batches p.plan.size job.items with
  | .error e => ⟨[], .error e, p⟩
  | .ok parts =>
    let done := p.batches job 0 parts
    ⟨.started job.items.length parts.length :: done.history,
      done.returned.map fun _ => done.left.summary job.items.length, done.left⟩

/-- The processor as the calls with some jobs leave it. -/
def after (p : Processor ι ρ ε) (jobs : List (Job ι ρ ε)) : Processor ι ρ ε :=
  jobs.foldl (fun p job => (p.call job).left) p

end Processor

/-! ## 2. A call -/

/-- What is reported, as a call returns it. -/
def Report.summary (r : Report ι ρ ε) : Summary ι ρ ε :=
  ⟨r.results, r.results.length, r.items, r.errors, r.errors.length⟩

namespace Processor

theorem plan_batches (job : Job ι ρ ε) (parts : List (List ι)) :
    ∀ (index : Nat) (p : Processor ι ρ ε), (p.batches job index parts).left.plan = p.plan := by
  induction parts with
  | nil => exact fun _ _ => rfl
  | cons items rest ih =>
    intro index p
    rw [batches]
    split
    · rfl
    · exact ih (index + 1) _

theorem plan_call (p : Processor ι ρ ε) (job : Job ι ρ ε) : (p.call job).left.plan = p.plan := by
  unfold call
  dsimp only
  split
  · rfl
  · exact plan_batches job _ 0 _

/-- A processor keeps its plan. -/
theorem plan_after (jobs : List (Job ι ρ ε)) :
    ∀ p : Processor ι ρ ε, (p.after jobs).plan = p.plan := by
  induction jobs with
  | nil => exact fun _ => rfl
  | cons job rest ih => exact fun p => (ih (p.call job).left).trans (plan_call p job)

/-- Batch by batch, a processor adds to what it holds. -/
theorem batches_held (job : Job ι ρ ε) (parts : List (List ι)) :
    ∀ (index : Nat) (p : Processor ι ρ ε),
      (p.batches job index parts).history
          = (p.plan.batches job.work job.orders index parts).1 ∧
        match (p.plan.batches job.work job.orders index parts).2 with
        | .error e => (p.batches job index parts).returned = .error e
        | .ok (results, errors) => (p.batches job index parts).returned = .ok () ∧
          (p.batches job index parts).left
            = ⟨p.plan, p.results ++ results.flatten, p.errors ++ errors⟩ := by
  induction parts with
  | nil =>
    intro index p
    refine ⟨rfl, rfl, ?_⟩
    show p = ⟨p.plan, p.results ++ [], p.errors ++ []⟩
    rw [List.append_nil, List.append_nil]
  | cons items rest ih =>
    intro index p
    rw [batches, Plan.batches]
    cases hb : p.plan.batch job.work (job.orders index) items with
    | error e => exact ⟨rfl, rfl⟩
    | ok outcome =>
      obtain ⟨hhistory, hreturned⟩ := ih (index + 1) (p.add outcome)
      have hplan : (p.add outcome).plan = p.plan := rfl
      rw [hplan] at hhistory hreturned
      refine ⟨?_, ?_⟩
      · dsimp only
        rw [hhistory]
      · cases ha : (p.plan.batches job.work job.orders (index + 1) rest).2 with
        | error e =>
          rw [ha] at hreturned
          simp only [ha, Except.map]
          exact hreturned
        | ok after =>
          rw [ha] at hreturned
          simp only [ha, Except.map]
          refine ⟨hreturned.1, ?_⟩
          rw [hreturned.2, List.flatten_cons, ← List.append_assoc, ← List.append_assoc]
          rfl

/-- **A call does what the plan does**, whatever the processor holds. -/
theorem call_process (p : Processor ι ρ ε) (job : Job ι ρ ε) :
    (p.call job).history = (p.plan.process job.work job.orders job.items).history ∧
      (p.call job).returned
        = (p.plan.process job.work job.orders job.items).report.map Report.summary := by
  unfold call Plan.process
  dsimp only
  cases Batch.batches p.plan.size job.items with
  | error e => exact ⟨rfl, rfl⟩
  | ok parts =>
    obtain ⟨hhistory, hreturned⟩ := batches_held job parts 0 { p with results := [], errors := [] }
    dsimp only at hhistory hreturned ⊢
    refine ⟨by rw [hhistory], ?_⟩
    cases ha : (p.plan.batches job.work job.orders 0 parts).2 with
    | error e =>
      rw [ha] at hreturned
      rw [hreturned]
      rfl
    | ok after =>
      rw [ha] at hreturned
      rw [hreturned.1, hreturned.2]
      rfl

end Processor

/-! ## 3. Histories -/

/-- The item that was worked on, if the event is about that. -/
def Event.ran? : Event ι ρ ε → Option ι
  | .ran item => some item
  | _ => none

/-- The number and the results of the batch that is complete, if the event is about that. -/
def Event.completed? : Event ι ρ ε → Option (Nat × List ρ)
  | .completed index results => some (index, results)
  | _ => none

/-- The items that were worked on. -/
def ran (history : List (Event ι ρ ε)) : List ι := history.filterMap Event.ran?

/-- The batches that were completed. -/
def completions (history : List (Event ι ρ ε)) : List (Nat × List ρ) :=
  history.filterMap Event.completed?

/-- Workers finish in the given order: each of the first `count` positions is listed once. -/
def IsFinishOrder (order : List Nat) (count : Nat) : Prop :=
  (order.filter fun i => i < count).Perm (List.range count)

/-- The answers of the work on items. -/
def answers (work : ι → Except ε ρ) (items : List ι) : List ρ :=
  items.filterMap fun item => (work item).toOption

variable {work : ι → Except ε ρ}

theorem ran_append (a b : List (Event ι ρ ε)) : ran (a ++ b) = ran a ++ ran b :=
  List.filterMap_append

theorem completions_append (a b : List (Event ι ρ ε)) :
    completions (a ++ b) = completions a ++ completions b := List.filterMap_append

theorem history_inTurn (work : ι → Except ε ρ) (items : List ι) :
    ran (inTurn work items).history = items ∧ completions (inTurn work items).history = [] := by
  induction items with
  | nil => exact ⟨rfl, rfl⟩
  | cons item rest ih =>
    obtain ⟨hran, hcompletions⟩ := ih
    rw [inTurn]
    cases work item with
    | ok result => exact ⟨congrArg (item :: ·) hran, hcompletions⟩
    | error e => exact ⟨congrArg (item :: ·) hran, hcompletions⟩

/-- Nothing is worked on where outcomes are collected. -/
theorem history_collect (outcomes : List (ι × Except ε ρ)) :
    ran (collect outcomes).history = [] ∧ completions (collect outcomes).history = [] := by
  induction outcomes with
  | nil => exact ⟨rfl, rfl⟩
  | cons d rest ih =>
    obtain ⟨item, outcome⟩ := d
    cases outcome with
    | ok result => exact ih
    | error e => exact ih

/-- What workers finish in an order are the items, each of them once. -/
theorem IsFinishOrder.perm {order : List Nat} {batch : List ι} (h : IsFinishOrder order batch.length) :
    (order.filterMap fun i => batch[i]?).Perm batch := by
  have hwithin : ((order.filter fun i => i < batch.length).filterMap fun i => batch[i]?)
      = order.filterMap fun i => batch[i]? := by
    rw [List.filterMap_filter]
    refine congrArg (List.filterMap · order) (funext fun i => ?_)
    split
    · rfl
    · rename_i hi
      exact (List.getElem?_eq_none (by simpa using hi)).symm
  have hrange : (List.range batch.length).map (fun i => batch[i]?) = batch.map some :=
    List.ext_getElem (by simp) (by simp)
  have hall : ((List.range batch.length).filterMap fun i => batch[i]?) = batch := by
    calc ((List.range batch.length).filterMap fun i => batch[i]?)
        = ((List.range batch.length).map fun i => batch[i]?).filterMap id := by
          rw [List.filterMap_map]; rfl
      _ = batch := by rw [hrange, List.filterMap_map]; exact List.filterMap_some
  have hperm := List.Perm.filterMap (fun i => batch[i]?) h
  rwa [hwithin, hall] at hperm

theorem history_pooled {order : List Nat} {batch : List ι} (h : IsFinishOrder order batch.length) :
    (ran (pooled work order batch).history).Perm batch ∧
      completions (pooled work order batch).history = [] := by
  obtain ⟨hran, hcompletions⟩ :=
    history_collect (batch.zipIdx.map fun d => (d.1, outcomeAt work (finished work order batch) d.1 d.2))
  have hdone : (finished work order batch).map (fun d => d.2.1)
      = order.filterMap fun i => batch[i]? := by
    rw [finished, List.map_filterMap]
    refine congrArg (List.filterMap · order) (funext fun i => ?_)
    rw [Option.map_map]
    exact Option.map_id'
  have hfinished : ran ((finished work order batch).map fun d => (.ran d.2.1 : Event ι ρ ε))
      = order.filterMap fun i => batch[i]? := by
    rw [ran, List.filterMap_map, ← hdone]
    exact congrFun List.filterMap_eq_map _
  constructor
  · show (ran (_ ++ _)).Perm batch
    rw [ran_append, hran, List.append_nil, hfinished]
    exact h.perm
  · show completions (_ ++ _) = []
    rw [completions_append, hcompletions, List.append_nil, completions, List.filterMap_map]
    exact List.filterMap_eq_nil_iff.mpr fun _ _ => rfl

/-- **The work on each item of a batch is done once**, if the workers of a pool finish. -/
theorem history_batch {plan : Plan} {order : List Nat} {items : List ι} {outcome : Outcome ι ρ ε}
    (hfinish : plan.strategy = .parallel → IsFinishOrder order items.length)
    (h : plan.batch work order items = .ok outcome) :
    (ran outcome.history).Perm items ∧ completions outcome.history = [] := by
  cases hs : plan.strategy with
  | sequential =>
    rw [Plan.batch, hs] at h
    obtain rfl := Except.ok.inj h
    obtain ⟨hran, hcompletions⟩ := history_inTurn work items
    exact ⟨.of_eq hran, hcompletions⟩
  | parallel =>
    rw [Plan.batch, hs] at h
    cases hc : checkWorkers plan.workers with
    | error e => rw [hc] at h; cases h
    | ok _ =>
      rw [hc] at h
      obtain rfl := Except.ok.inj h
      exact history_pooled (hfinish hs)

/-- **Batches are completed one after the other**, each with the answers of its items. -/
theorem history_batches (work : ι → Except ε ρ) {plan : Plan} (hworkers : plan.hasWorkers = true)
    {orders : Nat → List Nat} (parts : List (List ι)) :
    ∀ index, (plan.strategy = .parallel → ∀ i batch, parts[i]? = some batch →
        IsFinishOrder (orders (index + i)) batch.length) →
      (ran (plan.batches work orders index parts).1).Perm parts.flatten ∧
        completions (plan.batches work orders index parts).1
          = ((parts.map (answers work)).zipIdx index).map Prod.swap := by
  induction parts with
  | nil => exact fun _ _ => ⟨.nil, rfl⟩
  | cons items rest ih =>
    intro index hfinish
    obtain ⟨outcome, hb⟩ := batch_of_hasWorkers work hworkers (orders index) items
    obtain ⟨hran, hcompletions⟩ := history_batch (fun hs => hfinish hs 0 items rfl) hb
    obtain ⟨hrest, hlater⟩ := ih (index + 1) fun hs i batch hi => by
      rw [Nat.add_assoc, Nat.add_comm 1 i]
      exact hfinish hs (i + 1) batch hi
    rw [Plan.batches, hb]
    dsimp only
    constructor
    · rw [ran_append, List.flatten_cons]
      exact hran.append hrest
    · rw [completions_append, hcompletions, List.nil_append, List.map_cons, List.zipIdx_cons,
        List.map_cons, ← hlater]
      exact congrArg (fun results => (index, results) :: _) (outcome_batch hb).1

/-! ## 4. Partitions -/

/-- The summary of a job: its answers and failures in the order of the items. -/
def Job.summary (job : Job ι ρ ε) : Summary ι ρ ε where
  results := answers job.work job.items
  processed := (answers job.work job.items).length
  items := job.items.length
  errors := job.items.filterMap (failure? job.work)
  failures := (job.items.filterMap (failure? job.work)).length

/-- Each item is answered or it fails. -/
theorem length_answers_add_failures (items : List ι) :
    (answers work items).length + (items.filterMap (failure? work)).length = items.length := by
  induction items with
  | nil => rfl
  | cons item rest ih =>
    rw [answers] at ih ⊢
    cases hw : work item with
    | ok result =>
      rw [List.filterMap_cons_some (by rw [hw]; rfl), List.filterMap_cons_none (failure?_of_ok hw),
        List.length_cons, List.length_cons]
      omega
    | error e =>
      rw [List.filterMap_cons_none (by rw [hw]; rfl),
        List.filterMap_cons_some (failure?_of_error hw), List.length_cons, List.length_cons]
      omega

/-- A plan makes batches of `n` items each, and it finds the workers that it needs. -/
structure Plan.Works (plan : Plan) (n : Int) : Prop where
  size : plan.size.index = .ok n
  positive : 1 ≤ n
  workers : plan.hasWorkers = true

/-- Whole numbers from 1 on will do. -/
theorem Plan.works_of_numbers (strategy : Strategy) {n m : Int} (hn : 1 ≤ n) (hm : 1 ≤ m) :
    (⟨strategy, .int n, .int m⟩ : Plan).Works n where
  size := rfl
  positive := hn
  workers := by
    have hcompare : compare m 0 = .gt := Int.compare_eq_gt.mpr (by omega)
    have hcheck : checkWorkers (.int m) = .ok () := by
      rw [checkWorkers, Value.compareInt, hcompare]
    rw [Plan.hasWorkers, hcheck]
    exact Bool.or_true _

theorem Plan.Works.batches_eq {plan : Plan} {n : Int} (h : plan.Works n) (items : List ι) :
    Batch.batches plan.size items = .ok (chunks n.toNat items) := by
  have hpositive := h.positive
  rw [Batch.batches, h.size]
  dsimp only
  rw [if_neg (by omega), if_neg (by omega)]

/-- If a pool works by the plan, its workers finish the items of each batch in the orders of the
    job. -/
def Plan.Finishes (plan : Plan) (n : Int) (job : Job ι ρ ε) : Prop :=
  plan.strategy = .parallel → ∀ i batch, (chunks n.toNat job.items)[i]? = some batch →
    IsFinishOrder (job.orders i) batch.length

/-- What is reported of a plan that works. -/
theorem Plan.Works.report_eq {plan : Plan} {n : Int} (h : plan.Works n) (job : Job ι ρ ε) :
    (plan.process job.work job.orders job.items).report.map Report.summary = .ok job.summary := by
  have hpositive := h.positive
  obtain ⟨report, hreport⟩ :=
    process_of_hasWorkers job.work h.size (by omega) h.workers job.orders job.items
  obtain ⟨hresults, herrors⟩ := report_process h.size (by omega) hreport
  have hitems : report.items = job.items.length := by
    rw [Plan.process, h.batches_eq] at hreport
    cases ha : (plan.batches job.work job.orders 0 (chunks n.toNat job.items)).2 with
    | error e => simp only [ha] at hreport; cases hreport
    | ok after =>
      simp only [ha] at hreport
      obtain rfl := Except.ok.inj hreport
      rfl
  rw [hreport]
  show Except.ok report.summary = _
  rw [Report.summary, hresults, herrors, hitems]
  rfl

/-- **What a call does**, whatever the processor was called with before. -/
theorem Plan.Works.call_eq {plan : Plan} {n : Int} (h : plan.Works n) (earlier : List (Job ι ρ ε))
    {job : Job ι ρ ε} (hfinish : plan.Finishes n job) :
    let done := ((Processor.new plan).after earlier).call job
    (ran done.history).Perm job.items ∧ done.returned = .ok job.summary ∧
      completions done.history
        = ((chunks n.toNat job.items).map (answers job.work)).zipIdx.map Prod.swap := by
  intro done
  obtain ⟨hhistory, hreturned⟩ := Processor.call_process ((Processor.new plan).after earlier) job
  rw [Processor.plan_after] at hhistory hreturned
  have hprocess : done.history = .started job.items.length (chunks n.toNat job.items).length ::
      (plan.batches job.work job.orders 0 (chunks n.toNat job.items)).1 := by
    refine hhistory.trans ?_
    show (plan.process job.work job.orders job.items).history = _
    rw [Plan.process, h.batches_eq]
  obtain ⟨hran, hcompletions⟩ :=
    history_batches job.work h.workers (chunks n.toNat job.items) 0 fun hs i batch hi => by
      rw [Nat.zero_add]
      exact hfinish hs i batch hi
  rw [flatten_chunks] at hran
  rw [hprocess]
  exact ⟨hran, hreturned.trans (h.report_eq job), hcompletions⟩

/-- **Work in batches is an order-preserving partition.** Let batches hold at least one item, and let a
    pool have workers, which finish the items of each batch in some order. Whatever a processor
    was called with before, its call with a job does the work on each item once. It returns the
    answers and the failures in the order of the items, with their numbers, which add up to the
    number of items. The batches are completed with the numbers 0, 1, 2 and so on, and their results
    one after the other are the results. Any other processor with batches of this size, whatever its
    strategy and its workers are, returns the same and completes the same batches. -/
theorem call_partition {plan : Plan} {n : Int} (hworks : plan.Works n) (earlier : List (Job ι ρ ε))
    {job : Job ι ρ ε} (hfinish : plan.Finishes n job) :
    let done := ((Processor.new plan).after earlier).call job
    (ran done.history).Perm job.items ∧
      done.returned = .ok job.summary ∧
      job.summary.processed + job.summary.failures = job.summary.items ∧
      (completions done.history).map Prod.fst = List.range (chunks n.toNat job.items).length ∧
      ((completions done.history).map Prod.snd).flatten = job.summary.results ∧
      ∀ (plan' : Plan) (earlier' : List (Job ι ρ ε)) (orders : Nat → List Nat), plan'.Works n →
        plan'.Finishes n { job with orders } →
        let done' := ((Processor.new plan').after earlier').call { job with orders }
        done'.returned = done.returned ∧ completions done'.history = completions done.history := by
  intro done
  obtain ⟨hran, hreturned, hcompletions⟩ := hworks.call_eq earlier hfinish
  refine ⟨hran, hreturned, length_answers_add_failures job.items, ?_, ?_, ?_⟩
  · calc (completions done.history).map Prod.fst
        = ((chunks n.toNat job.items).map (answers job.work)).zipIdx.map Prod.snd := by
          rw [hcompletions, List.map_map]; rfl
      _ = List.range (chunks n.toNat job.items).length := by
          rw [List.zipIdx_map_snd, List.length_map, List.range_eq_range']
  · calc ((completions done.history).map Prod.snd).flatten
        = (((chunks n.toNat job.items).map (answers job.work)).zipIdx.map Prod.fst).flatten := by
          rw [hcompletions, List.map_map]; rfl
      _ = ((chunks n.toNat job.items).map (answers job.work)).flatten := by
          rw [List.zipIdx_map_fst]
      _ = answers job.work (chunks n.toNat job.items).flatten := List.filterMap_flatten.symm
      _ = answers job.work job.items := by rw [flatten_chunks]
  · intro plan' earlier' orders hworks' hfinish'
    obtain ⟨-, hreturned', hcompletions'⟩ := hworks'.call_eq earlier' hfinish'
    exact ⟨hreturned'.trans hreturned.symm, hcompletions'.trans hcompletions.symm⟩

/-- A pool of two workers with batches of two items. The work fails on the number three, and in the
    first batch the second item is finished first. -/
theorem call_partition_pool :
    let plan : Plan := ⟨.parallel, .int 2, .int 2⟩
    let work : Nat → Except Nat Nat := fun item => if item = 3 then .error 0 else .ok (2 * item)
    let job : Job Nat Nat Nat :=
      ⟨work, [1, 2, 3, 4, 5], fun i => if i = 0 then [1, 0] else List.range 2⟩
    plan.Works 2 ∧ plan.Finishes 2 job ∧
      (((Processor.new plan).after [job]).call job).returned
        = .ok ⟨[2, 4, 8, 10], 4, 5, [(3, 0)], 1⟩ := by
  intro plan work job
  have hworks : plan.Works 2 := Plan.works_of_numbers .parallel (by decide) (by decide)
  have hchunks : chunks 2 job.items = [[1, 2], [3, 4], [5]] := by simp [chunks, job]
  have hfinish : plan.Finishes 2 job := by
    intro _ i batch hbatch
    rw [show (2 : Int).toNat = 2 from rfl, hchunks] at hbatch
    rcases i with _ | _ | _ | i
    · obtain rfl := Option.some.inj hbatch
      exact (by decide : [1, 0].Perm [0, 1])
    · obtain rfl := Option.some.inj hbatch
      exact .refl _
    · obtain rfl := Option.some.inj hbatch
      exact .refl _
    · cases hbatch
  exact ⟨hworks, hfinish, (call_partition hworks [job] hfinish).2.1⟩

end GraphFeed.Batch
