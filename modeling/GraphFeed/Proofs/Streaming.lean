import GraphFeed.Proofs.Conclusion

/-!
# Runs without a transaction

A run without a transaction accounts for every line that it reads (`Accounted`): the statement of a
line is sent on its own, in the order of the lines, whatever becomes of the other lines, and each line
is counted once, as written, passed over or failed. So it is however lines fail: by a failure that is
reported, by a fault of the work on them, or because the database refuses their statement.

* `orderly_sent`: without a transaction no statement is withheld;
* `statements_of_sent`, `length_of_sent`: so a tale has sent the statements that its lines come to,
  and each of its entries is counted once;
* `run_accounted`: **a run without a transaction accounts for every line that it reads**.

Lines that are not read are not accounted for (`immense_batches_unaccounted`).
-/

namespace GraphFeed.Run

open GraphFeed.Graph

/-! ## 1. Tales without a transaction -/

/-- Without a transaction nothing is withheld. -/
theorem orderly_sent {tale : List Entry} : ∀ {failed : Bool}, Orderly false failed tale →
    ∀ d ∈ tale, d.fate.fits false = true := by
  induction tale with
  | nil => exact fun _ => nofun
  | cons d tale ih =>
    rintro failed ⟨hfits, horderly⟩
    exact List.forall_mem_cons.mpr ⟨hfits, ih horderly⟩

/-- **Where nothing is withheld, the statements sent are those that the lines come to.** -/
theorem statements_of_sent {tale : List Entry} (h : ∀ d ∈ tale, d.fate.fits false = true) :
    (tale.filterMap Entry.answer?).map Prod.fst = statements (tale.map fun d => d.fate.result) := by
  unfold statements
  induction tale with
  | nil => rfl
  | cons d tale ih =>
    obtain ⟨hd, htale⟩ := List.forall_mem_cons.mp h
    obtain ⟨line, fate⟩ := d
    cases fate with
    | withheld st => cases hd
    | failed e => exact ih htale
    | skipped => exact ih htale
    | written st => exact congrArg (↑st :: ·) (ih htale)
    | refused st message => exact congrArg (↑st :: ·) (ih htale)

/-- **Each entry is counted once**, as written, passed over or failed. -/
theorem length_of_sent {tale : List Entry} (h : ∀ d ∈ tale, d.fate.fits false = true) :
    (tale.countP fun d => d.fate.isWritten) + (tale.countP fun d => d.fate.isSkipped)
      + (tale.filterMap Entry.failure?).length = tale.length := by
  induction tale with
  | nil => rfl
  | cons d tale ih =>
    obtain ⟨hd, htale⟩ := List.forall_mem_cons.mp h
    have hrest := ih htale
    obtain ⟨line, fate⟩ := d
    cases fate with
    | withheld st => cases hd
    | failed | skipped | written | refused =>
      simp only [List.countP_cons, List.filterMap_cons, Entry.failure?, Fate.error?, Fate.isWritten,
        Fate.isSkipped, Option.map, List.length_cons, if_true, Bool.false_eq_true, if_false] at hrest ⊢
      omega

/-! ## 2. Runs -/

/-- **Every line is accounted for** by a tale with one entry for each, in their order. `late` is what
    is answered to the query at the end. -/
structure Accounted (w : Surroundings) (p : Plan) (template : Text) (read : List Line) (s : State)
    (tale : List Entry) (late : List (Request × Option Text)) : Prop where
  entries : tale.map (fun d => (d.line, d.fate.result))
    = read.map fun line => (some line, lineResult w p template line)
  /-- No statement is withheld. -/
  sent : (tale.filterMap Entry.answer?).map Prod.fst
    = statements (read.map (lineResult w p template))
  answers : answers w.server Call.alone? s.connection.calls = tale.filterMap Entry.answer? ++ late
  /-- Behind the statements of lines at most the query at the end is sent. -/
  last : late.length ≤ 1 ∧ ∀ a ∈ late, p.endQuery = some a.1.query ∧ a.1.parameters = []
  /-- Nothing is begun, committed, rolled back or sent in a transaction. -/
  noTransaction : ∀ call ∈ s.connection.calls, call.isPlain = true ∨ call.isAlone = true
  written : s.expressions = tale.countP fun d => d.fate.isWritten
  skipped : s.skipped = tale.countP fun d => d.fate.isSkipped
  /-- The failures of lines that are listed are those of the tale. Faults are listed at the end of
      their batch. -/
  failed : s.lined.Perm (tale.filterMap Entry.failure?)
  total : s.expressions + s.skipped + s.lined.length = read.length

variable {w : Surroundings} {p : Plan} {template : Text}

theorem isAlone_of_alone? {call : Call} (h : call.alone?.isSome = true) : call.isAlone = true := by
  cases call <;> first | rfl | cases h

/-- Without a transaction nothing is begun, ended or sent in one. -/
theorem Told.noTransaction {tale : List Entry} {s : State} (htransactional : p.transactional = false)
    (h : Told w p Call.alone? tale s) :
    ∀ call ∈ s.connection.calls, call.isPlain = true ∨ call.isAlone = true := by
  obtain ⟨fed, _, hcalls, more, hmore, hconcludes, _⟩ := h.fed
  intro call hc
  have hc : call ∈ more ++ fed.calls := hmore ▸ hc
  rcases List.mem_append.mp hc with hc | hc
  · rcases hconcludes call hc with h | ⟨h, _⟩ | ⟨session, last, _, rfl⟩
    · exact .inl h
    · rw [usesTransaction, htransactional] at h
      cases h
    · exact .inr rfl
  · rcases hcalls call hc with h | ⟨h, _⟩ | h
    · exact .inl h
    · rw [htransactional] at h
      cases h
    · exact .inr (isAlone_of_alone? h)

/-- **A run without a transaction accounts for every line that it reads**, if it comes to its lines.
    Where lines are read and the database refuses statements only, it returns, unless it comes to a
    query at the end that it cannot log. -/
theorem run_accounted (htransactional : p.transactional = false) (hsimulated : p.simulated = false)
    (hopens : Opens w p) (htemplate : template ≠ []) (lines : List Text) :
    (∃ tale late, Accounted w p template (readLines p lines) (run w p template (some lines)).2
      tale late) ∧
    (makesBatches p = true → RefusesStatementsOnly w.server →
      ((run w p template (some lines)).1 = .ok () ↔
        canLogEndQuery p = true ∨ (run w p template (some lines)).2.isFailed = true)) := by
  obtain ⟨tale, ordered, htells, horderly, htold, hreturns⟩ :=
    run_told hsimulated hopens htemplate lines (Opened.ready_alone htransactional)
      alone?_of_opening
  refine ⟨?_, hreturns⟩
  rw [htransactional] at horderly
  generalize (run w p template (some lines)).2 = s at htold
  obtain ⟨fed, hanswers, _, hconcluding⟩ := htold.fed
  obtain ⟨late, hlate, hlength, hlast⟩ := hconcluding.answers_alone w.server
  have hsent : ∀ d ∈ ordered, d.fate.fits false = true := fun d hd =>
    orderly_sent horderly d (htells.perm.symm.subset hd)
  have hwritten : s.expressions = ordered.countP fun d => d.fate.isWritten :=
    htold.expressions.trans (htells.perm.countP_eq _)
  have hskipped : s.skipped = ordered.countP fun d => d.fate.isSkipped :=
    htold.skipped.trans (htells.perm.countP_eq _)
  have hfailed : s.lined.Perm (ordered.filterMap Entry.failure?) := by
    rw [htold.lined]
    exact htells.perm.filterMap _
  have hresults : ordered.map (fun d => d.fate.result)
      = (readLines p lines).map (lineResult w p template) := by
    have hboth := congrArg (List.map Prod.snd) htells.entries
    rwa [List.map_map, List.map_map] at hboth
  refine ⟨ordered, late, ?_⟩
  constructor
  case entries => exact htells.entries
  case sent => rw [statements_of_sent hsent, hresults]
  case answers => rw [← htells.answers, ← hanswers]; exact hlate
  case last =>
    refine ⟨Nat.le_trans hlength ?_, hlast⟩
    split <;> omega
  case noTransaction => exact htold.noTransaction htransactional
  case written => exact hwritten
  case skipped => exact hskipped
  case failed => exact hfailed
  case total =>
    have hlength : ordered.length = (readLines p lines).length := by
      simpa using congrArg List.length htells.entries
    rw [hwritten, hskipped, hfailed.length_eq, length_of_sent hsent, hlength]

/-- A plan that writes without a transaction, with batches of a size. -/
def streamingBatchesOf (size : Value) : Plan := { inBatchesOf size with transactional := false }

/-- A database that refuses the second statement, and commands that break down for the second line. -/
def breakingSecond : Surroundings :=
  { obliging with
    server := refusingSecond Call.isAlone
    runner := fun number => .ofFunction fun _ =>
      if number = 2 then .error (.refused "broken") else .ok ⟨[], []⟩ }

/-- Of five lines the first is written, the work on the second breaks down, the third cannot be read,
    the fourth is passed over, and the statement of the last is refused. -/
theorem run_accounted_breakingSecond :
    let p := streamingBatchesOf (.int 2)
    let lines : List Text := ["a", "b", "c(", "d:''", "e"]
    p.transactional = false ∧ p.simulated = false ∧ Opens breakingSecond p ∧ makesBatches p = true ∧
    (∃ tale late, Accounted breakingSecond p "{1}{!x}" (readLines p lines)
      (run breakingSecond p "{1}{!x}" (some lines)).2 tale late) ∧
    (run breakingSecond p "{1}{!x}" (some lines)).1 = .ok () := by
  intro p lines
  have hopens : Opens breakingSecond p := ⟨rfl, rfl⟩
  have hbatches : makesBatches p = true := rfl
  have hserver : RefusesStatementsOnly breakingSecond.server :=
    refusesStatementsOnly_refusingSecond fun call h => by cases call <;> first | rfl | cases h
  obtain ⟨haccounted, hreturns⟩ := run_accounted rfl rfl hopens (List.cons_ne_nil _ _) lines
  exact ⟨rfl, rfl, hopens, hbatches, haccounted, (hreturns hbatches hserver).mpr (.inl rfl)⟩

/-- **Lines that are not read are not accounted for.** With batches that are too great to be asked
    for, a line is neither written nor passed over, and no failure of it is listed. -/
theorem immense_batches_unaccounted :
    let p := streamingBatchesOf (.int 9223372036854775808)
    p.transactional = false ∧ p.simulated = false ∧ Opens obliging p ∧
    ¬∃ tale late, Accounted obliging p "a" (number ["b"]) (run obliging p "a" (some ["b"])).2
      tale late := by
  intro p
  refine ⟨rfl, rfl, ⟨rfl, rfl⟩, ?_⟩
  rintro ⟨tale, late, h⟩
  have htotal := h.total
  revert htotal
  decide +kernel

end GraphFeed.Run
