import GraphFeed.Batch

/-!
# What batches make of their items

However items are cut into batches, and in whatever order the workers of a pool finish, the report
lists the answers and the failures in the order of the items.

* `results_inTurn`, `errors_inTurn`: what the work one after the other yields;
* `outcomes_pooled`: a pool hands in the outcome of each item at its place, so it yields the same
  (`results_pooled`, `errors_pooled`);
* `report_process`: the report on all batches lists the answers and the failures of the items;
* `process_of_hasWorkers`, `process_of_noWorkers`, `process_of_noIndex`: when there is a report;
* `report_orders`: it does not depend on the order in which workers finish;
* `outcomes_of_noErrors`: where no failure is listed, the results are what the work makes of the
  items, one by one.
-/

namespace GraphFeed.Batch

variable {ι ρ ε : Type} (work : ι → Except ε ρ)

/-! ## 1. Answers and failures -/

/-- The failure of the work on an item, with the item. -/
def failure? (item : ι) : Option (ι × ε) :=
  match work item with
  | .ok _ => none
  | .error e => some (item, e)

variable {work}

theorem failure?_of_ok {item : ι} {result : ρ} (h : work item = .ok result) :
    failure? work item = none := by
  rw [failure?, h]

theorem failure?_of_error {item : ι} {e : ε} (h : work item = .error e) :
    failure? work item = some (item, e) := by
  rw [failure?, h]

/-- **Where no work fails, the answers are those of the items one by one.** -/
theorem outcomes_of_noErrors {items : List ι} (h : items.filterMap (failure? work) = []) :
    items.map work = (items.filterMap fun item => (work item).toOption).map .ok := by
  induction items with
  | nil => rfl
  | cons item rest ih =>
    cases hw : work item with
    | ok result =>
      rw [List.filterMap_cons_none (failure?_of_ok hw)] at h
      rw [List.map_cons, hw, List.filterMap_cons_some (by rw [hw]; rfl), List.map_cons, ih h]
    | error e =>
      rw [List.filterMap_cons_some (failure?_of_error hw)] at h
      exact absurd h (List.cons_ne_nil _ _)

/-! ## 2. One batch -/

theorem results_inTurn (items : List ι) :
    (inTurn work items).results = items.filterMap fun item => (work item).toOption := by
  induction items with
  | nil => rfl
  | cons item rest ih =>
    cases hw : work item with
    | ok result =>
      rw [List.filterMap_cons_some (by rw [hw]; rfl), ← ih, inTurn, hw]
    | error e =>
      rw [List.filterMap_cons_none (by rw [hw]; rfl), ← ih, inTurn, hw]

theorem errors_inTurn (items : List ι) :
    (inTurn work items).errors = items.filterMap (failure? work) := by
  induction items with
  | nil => rfl
  | cons item rest ih =>
    cases hw : work item with
    | ok result => rw [List.filterMap_cons_none (failure?_of_ok hw), ← ih, inTurn, hw]
    | error e => rw [List.filterMap_cons_some (failure?_of_error hw), ← ih, inTurn, hw]

/-- Collected outcomes yield what the work one after the other yields. -/
theorem collect_outcomes (items : List ι) :
    (collect (items.map fun item => (item, work item))).results = (inTurn work items).results ∧
      (collect (items.map fun item => (item, work item))).errors = (inTurn work items).errors := by
  induction items with
  | nil => exact ⟨rfl, rfl⟩
  | cons item rest ih =>
    obtain ⟨hresults, herrors⟩ := ih
    cases hw : work item with
    | ok result =>
      simp only [List.map_cons, hw, collect, inTurn, hresults, herrors, and_self]
    | error e =>
      simp only [List.map_cons, hw, collect, inTurn, hresults, herrors, and_self]

/-- What a worker has finished is the work on the item at its position. -/
theorem outcomeAt_finished {order : List Nat} {batch : List ι} {item : ι} {i : Nat}
    (h : batch[i]? = some item) :
    outcomeAt work (finished work order batch) item i = work item := by
  rw [outcomeAt]
  cases hfind : (finished work order batch).find? fun d => d.1 = i with
  | none => rfl
  | some d =>
    have hi : d.1 = i := by simpa using List.find?_some hfind
    obtain ⟨j, _, hj⟩ := List.mem_filterMap.mp (List.mem_of_find?_eq_some hfind)
    obtain ⟨other, hother, rfl⟩ := Option.map_eq_some_iff.mp hj
    subst hi
    rw [h] at hother
    cases hother
    rfl

/-- **A pool hands in the work on each item at its place**, in whatever order its workers finish. -/
theorem outcomes_pooled (order : List Nat) (batch : List ι) :
    (batch.zipIdx.map fun d => (d.1, outcomeAt work (finished work order batch) d.1 d.2))
      = batch.map fun item => (item, work item) := by
  have hwork : ∀ d ∈ batch.zipIdx,
      (d.1, outcomeAt work (finished work order batch) d.1 d.2) = (d.1, work d.1) := by
    intro d hd
    rw [outcomeAt_finished (List.mk_mem_zipIdx_iff_getElem?.mp hd)]
  rw [List.map_congr_left hwork]
  calc batch.zipIdx.map (fun d => (d.1, work d.1))
      = (batch.zipIdx.map Prod.fst).map fun item => (item, work item) := by rw [List.map_map]; rfl
    _ = batch.map fun item => (item, work item) := by rw [List.zipIdx_map_fst]

theorem results_pooled (order : List Nat) (batch : List ι) :
    (pooled work order batch).results = (inTurn work batch).results := by
  rw [pooled, outcomes_pooled]
  exact (collect_outcomes batch).1

theorem errors_pooled (order : List Nat) (batch : List ι) :
    (pooled work order batch).errors = (inTurn work batch).errors := by
  rw [pooled, outcomes_pooled]
  exact (collect_outcomes batch).2

/-- Both strategies report the answers and the failures of the items in their order. -/
theorem outcome_batch {plan : Plan} {order : List Nat} {items : List ι} {outcome : Outcome ι ρ ε}
    (h : plan.batch work order items = .ok outcome) :
    outcome.results = items.filterMap (fun item => (work item).toOption) ∧
      outcome.errors = items.filterMap (failure? work) := by
  rw [← results_inTurn, ← errors_inTurn]
  cases hs : plan.strategy with
  | sequential =>
    rw [Plan.batch, hs] at h
    cases h
    exact ⟨rfl, rfl⟩
  | parallel =>
    rw [Plan.batch, hs] at h
    cases hc : checkWorkers plan.workers with
    | error e => rw [hc] at h; cases h
    | ok _ =>
      rw [hc] at h
      cases h
      exact ⟨results_pooled order items, errors_pooled order items⟩

/-! ## 3. All batches -/

theorem outcome_batches {plan : Plan} {orders : Nat → List Nat} (parts : List (List ι)) :
    ∀ {index : Nat} {results : List (List ρ)} {errors : List (ι × ε)},
      (plan.batches work orders index parts).2 = .ok (results, errors) →
        results.flatten = parts.flatten.filterMap (fun item => (work item).toOption) ∧
          errors = parts.flatten.filterMap (failure? work) := by
  induction parts with
  | nil =>
    intro index results errors h
    cases h
    exact ⟨rfl, rfl⟩
  | cons items rest ih =>
    intro index results errors h
    rw [Plan.batches] at h
    cases hb : plan.batch work (orders index) items with
    | error e => rw [hb] at h; cases h
    | ok outcome =>
      rw [hb] at h
      cases ha : (plan.batches work orders (index + 1) rest).2 with
      | error e => simp only [ha] at h; cases h
      | ok after =>
        simp only [ha] at h
        cases h
        obtain ⟨hresults, herrors⟩ := outcome_batch hb
        obtain ⟨hrest, hlast⟩ := ih ha
        rw [List.flatten_cons, List.flatten_cons, List.filterMap_append, List.filterMap_append,
          hresults, herrors, hrest, hlast]
        exact ⟨rfl, rfl⟩

/-- The batches of a size that is no negative number are the items. -/
theorem flatten_batches {size : Value} {n : Int} {items : List ι} {parts : List (List ι)}
    (hn : size.index = .ok n) (hpos : 0 ≤ n) (h : batches size items = .ok parts) :
    parts.flatten = items := by
  rw [batches, hn] at h
  dsimp only at h
  split at h
  · cases h
  · rw [if_neg (by omega)] at h
    cases h
    exact flatten_chunks _ items

/-- **A report lists the answers and the failures of the items in their order.** -/
theorem report_process {plan : Plan} {orders : Nat → List Nat} {items : List ι}
    {report : Report ι ρ ε} {n : Int} (hn : plan.size.index = .ok n) (hpos : 0 ≤ n)
    (h : (plan.process work orders items).report = .ok report) :
    report.results = items.filterMap (fun item => (work item).toOption) ∧
      report.errors = items.filterMap (failure? work) := by
  rw [Plan.process] at h
  cases hp : Batch.batches plan.size items with
  | error e => rw [hp] at h; cases h
  | ok parts =>
    rw [hp] at h
    cases ha : (plan.batches work orders 0 parts).2 with
    | error e => simp only [ha] at h; cases h
    | ok after =>
      simp only [ha] at h
      cases h
      have houtcome := outcome_batches parts ha
      rw [flatten_batches hn hpos hp] at houtcome
      exact houtcome

/-! ## 4. When there is a report -/

/-- The strategy finds the workers that it needs. -/
def Plan.hasWorkers (plan : Plan) : Bool :=
  plan.strategy = .sequential || (checkWorkers plan.workers).toBool

variable (work)

theorem batch_of_hasWorkers {plan : Plan} (h : plan.hasWorkers = true) (order : List Nat)
    (items : List ι) : ∃ outcome, plan.batch work order items = .ok outcome := by
  cases hs : plan.strategy with
  | sequential => exact ⟨inTurn work items, by rw [Plan.batch, hs]⟩
  | parallel =>
    cases hc : checkWorkers plan.workers with
    | error e => rw [Plan.hasWorkers, hs, hc] at h; cases h
    | ok _ => exact ⟨pooled work order items, by rw [Plan.batch, hs, hc]; rfl⟩

/-- What is wrong with a number of workers is a fault. -/
theorem isReported_checkWorkers {workers : Value} {e : Error} (h : checkWorkers workers = .error e) :
    e.isReported = false := by
  unfold checkWorkers at h
  split at h <;> cases h <;> rfl

theorem batch_of_noWorkers {plan : Plan} (h : plan.hasWorkers = false) (order : List Nat)
    (items : List ι) : ∃ e, e.isReported = false ∧ plan.batch work order items = .error e := by
  cases hs : plan.strategy with
  | sequential => rw [Plan.hasWorkers, hs] at h; cases h
  | parallel =>
    cases hc : checkWorkers plan.workers with
    | error e => exact ⟨e, isReported_checkWorkers hc, by rw [Plan.batch, hs, hc]; rfl⟩
    | ok _ => rw [Plan.hasWorkers, hs, hc] at h; cases h

theorem batches_of_hasWorkers {plan : Plan} (h : plan.hasWorkers = true)
    (orders : Nat → List Nat) (parts : List (List ι)) :
    ∀ index, ∃ after, (plan.batches work orders index parts).2 = .ok after := by
  induction parts with
  | nil => exact fun _ => ⟨_, rfl⟩
  | cons items rest ih =>
    intro index
    obtain ⟨outcome, hb⟩ := batch_of_hasWorkers work h (orders index) items
    obtain ⟨after, ha⟩ := ih (index + 1)
    rw [Plan.batches, hb]
    exact ⟨(outcome.results :: after.1, outcome.errors ++ after.2), by simp only [ha]; rfl⟩

/-- Batches of at least one item, and workers where they are needed, lead to a report. -/
theorem process_of_hasWorkers {plan : Plan} {n : Int} (hn : plan.size.index = .ok n) (hpos : 0 < n)
    (h : plan.hasWorkers = true) (orders : Nat → List Nat) (items : List ι) :
    ∃ report, (plan.process work orders items).report = .ok report := by
  have hparts : Batch.batches plan.size items = .ok (chunks n.toNat items) := by
    rw [Batch.batches, hn]
    dsimp only
    rw [if_neg (by omega), if_neg (by omega)]
  obtain ⟨after, ha⟩ := batches_of_hasWorkers work h orders (chunks n.toNat items) 0
  exact ⟨⟨items.length, after.1, after.2⟩, by
    rw [Plan.process, hparts]; simp only [ha]; rfl⟩

/-- Without workers there is a fault, if there is anything to do. -/
theorem process_of_noWorkers {plan : Plan} {n : Int} (hn : plan.size.index = .ok n) (hpos : 0 < n)
    (h : plan.hasWorkers = false) (orders : Nat → List Nat) {items : List ι} (hitems : items ≠ []) :
    ∃ e, e.isReported = false ∧ (plan.process work orders items).report = .error e := by
  obtain ⟨item, rest, rfl⟩ := List.exists_cons_of_ne_nil hitems
  obtain ⟨e, hfault, he⟩ := batch_of_noWorkers work h (orders 0)
    (item :: rest.take (n.toNat - 1))
  have hparts : Batch.batches plan.size (item :: rest) = .ok (chunks n.toNat (item :: rest)) := by
    rw [Batch.batches, hn]
    dsimp only
    rw [if_neg (by omega), if_neg (by omega)]
  refine ⟨e, hfault, ?_⟩
  rw [Plan.process, hparts, chunks]
  simp only [Plan.batches, he]
  rfl

/-- A size that is no whole number is a fault. -/
theorem process_of_noIndex {plan : Plan} {kind : Value.Kind} (hn : plan.size.index = .error kind)
    (orders : Nat → List Nat) (items : List ι) :
    ∃ e, e.isReported = false ∧ (plan.process work orders items).report = .error e := by
  refine ⟨.notAnIndex kind, rfl, ?_⟩
  rw [Plan.process, Batch.batches, hn]

/-! ## 5. Orders of workers -/

theorem batch_orders (plan : Plan) (order order' : List Nat) (items : List ι) :
    ((plan.batch work order' items).map fun outcome => (outcome.results, outcome.errors))
      = (plan.batch work order items).map fun outcome => (outcome.results, outcome.errors) := by
  cases hs : plan.strategy with
  | sequential => rw [Plan.batch, Plan.batch, hs]
  | parallel =>
    rw [Plan.batch, Plan.batch, hs]
    cases checkWorkers plan.workers with
    | error e => rfl
    | ok _ =>
      dsimp only [Except.map]
      rw [results_pooled, results_pooled, errors_pooled, errors_pooled]

theorem batches_orders (plan : Plan) (orders orders' : Nat → List Nat) (parts : List (List ι)) :
    ∀ index, (plan.batches work orders' index parts).2 = (plan.batches work orders index parts).2 := by
  induction parts with
  | nil => exact fun _ => rfl
  | cons items rest ih =>
    intro index
    have hbatch := batch_orders work plan (orders index) (orders' index) items
    rw [Plan.batches, Plan.batches]
    cases hb : plan.batch work (orders index) items with
    | error e =>
      cases hb' : plan.batch work (orders' index) items with
      | error e' =>
        rw [hb, hb'] at hbatch
        cases hbatch
        rfl
      | ok outcome' => rw [hb, hb'] at hbatch; cases hbatch
    | ok outcome =>
      cases hb' : plan.batch work (orders' index) items with
      | error e' => rw [hb, hb'] at hbatch; cases hbatch
      | ok outcome' =>
        rw [hb, hb'] at hbatch
        obtain ⟨hresults, herrors⟩ := Prod.mk.inj (Except.ok.inj hbatch)
        dsimp only
        rw [ih, hresults, herrors]

/-- **The report does not depend on the order in which workers finish.** -/
theorem report_orders (plan : Plan) (orders orders' : Nat → List Nat) (items : List ι) :
    (plan.process work orders' items).report = (plan.process work orders items).report := by
  rw [Plan.process, Plan.process]
  cases batches plan.size items with
  | error e => rfl
  | ok parts =>
    dsimp only
    rw [batches_orders work plan orders orders']

end GraphFeed.Batch
