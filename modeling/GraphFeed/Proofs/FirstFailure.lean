import GraphFeed.Proofs.Conclusion

/-!
# The first failure of a transaction

A run in a transaction sends the statements of its lines up to the first line that fails, and lists
that failure and those of the lines behind it (`SentUpTo`). Nothing is sent for a line behind it, but
each is still expanded, read, counted if it is passed over, and listed if that fails.

* `orderly_behind`: behind a failure nothing is sent, and what is listed are failures of the lines
  themselves;
* `sentUpTo_of_orderly`: so a tale in good order tells what is sent up to the first failure;
* `run_sentUpTo`: **that is what a run sends and lists**, if it comes to its lines and every failure
  to expand one of them is reported.

As ever that speaks of the lines that the run reads, which need not be all of them
(`immense_batches_unsent`).
-/

namespace GraphFeed.Run

open GraphFeed.Graph

/-! ## 1. The property -/

/-- What was sent and not refused. -/
def accepted (requests : List Request) : List (Request × Option Text) :=
  requests.map fun r => (r, none)

/-- The failure of a line itself. -/
def lineFailure? (result : Line → Except Error (Option Statement)) (line : Line) : Option Failure :=
  match result line with
  | .ok _ => none
  | .error e => some ⟨some line, e⟩

/-- **What is sent up to the first line that fails, and what is listed from it on**, given what lines
    come to. The statements sent are told with the reason for which they were refused, if they were. -/
inductive SentUpTo (result : Line → Except Error (Option Statement)) :
    List Line → List (Request × Option Text) → List Failure → Prop
  /-- No line fails. -/
  | whole {lines : List Line} (h : ∀ line ∈ lines, (result line).toBool = true) :
      SentUpTo result lines (accepted (statements (lines.map result))) []
  /-- The first failure is one of the line itself. -/
  | failing {before later : List Line} {first : Line} {e : Error}
      (h : ∀ line ∈ before, (result line).toBool = true) (hfirst : result first = .error e) :
      SentUpTo result (before ++ first :: later) (accepted (statements (before.map result)))
        (⟨some first, e⟩ :: later.filterMap (lineFailure? result))
  /-- The first failure is that the statement of the line is refused. -/
  | refused {before later : List Line} {first : Line} {st : Statement} {message : Text}
      (h : ∀ line ∈ before, (result line).toBool = true) (hfirst : result first = .ok (some st)) :
      SentUpTo result (before ++ first :: later)
        (accepted (statements (before.map result)) ++ [((st : Request), some message)])
        (⟨some first, .write .statement message⟩ :: later.filterMap (lineFailure? result))

variable {result : Line → Except Error (Option Statement)} {line : Line} {lines : List Line}
  {st? : Option Statement} {sent : List (Request × Option Text)} {listed : List Failure}

theorem accepted_statements_cons (h : result line = .ok st?) (lines : List Line) :
    accepted (statements ((line :: lines).map result))
      = accepted (statements [.ok st?]) ++ accepted (statements (lines.map result)) := by
  have hcons : statements ((line :: lines).map result)
      = statements [.ok st?] ++ statements (lines.map result) := by
    rw [List.map_cons, h, ← List.singleton_append, statements, List.filterMap_append]
    rfl
  rw [hcons, accepted, List.map_append]
  rfl

/-- A line in front that does not fail sends its statement, if it has one. -/
theorem SentUpTo.cons (h : SentUpTo result lines sent listed) (hline : result line = .ok st?) :
    SentUpTo result (line :: lines) (accepted (statements [.ok st?]) ++ sent) listed := by
  have hwell : ∀ {before : List Line}, (∀ line ∈ before, (result line).toBool = true) →
      ∀ l ∈ line :: before, (result l).toBool = true :=
    fun h => List.forall_mem_cons.mpr ⟨by rw [hline]; rfl, h⟩
  cases h with
  | whole h =>
    rw [← accepted_statements_cons hline]
    exact .whole (hwell h)
  | failing h hfirst =>
    rw [← accepted_statements_cons hline]
    exact .failing (hwell h) hfirst
  | refused h hfirst =>
    rw [← List.append_assoc, ← accepted_statements_cons hline]
    exact .refused (hwell h) hfirst

/-- Where no failure is listed, the statements of all lines were sent. -/
theorem SentUpTo.complete (h : SentUpTo result lines sent []) :
    sent = accepted (statements (lines.map result)) := by
  cases h
  rfl

/-! ## 2. Tales in good order -/

variable {tale : List Entry}

/-- **Behind a failure nothing is sent**, and the failures that are listed are those of the lines
    themselves. -/
theorem orderly_behind (horderly : Orderly true true tale)
    (hentries : tale.map (fun d => (d.line, d.fate.result)) = lines.map fun l => (some l, result l)) :
    tale.filterMap Entry.answer? = [] ∧
      tale.filterMap Entry.failure? = lines.filterMap (lineFailure? result) := by
  induction tale generalizing lines with
  | nil =>
    rw [List.map_eq_nil_iff.mp hentries.symm]
    exact ⟨rfl, rfl⟩
  | cons d tale ih =>
    obtain ⟨line, lines, rfl, hd, hrest⟩ := List.map_eq_cons_iff.mp hentries.symm
    obtain ⟨hline, hresult⟩ := Prod.mk.inj hd
    obtain ⟨hfits, horderly⟩ := horderly
    obtain ⟨hnone, hlisted⟩ := ih horderly hrest.symm
    obtain ⟨_, fate⟩ := d
    cases hline
    cases fate with
    | written st => cases hfits
    | refused st message => cases hfits
    | failed e =>
      have hentry : Entry.failure? ⟨some line, .failed e⟩ = some ⟨some line, e⟩ := rfl
      have hfailure : lineFailure? result line = some ⟨some line, e⟩ := by
        rw [lineFailure?, hresult]
        rfl
      refine ⟨hnone, ?_⟩
      rw [List.filterMap_cons_some hentry, hlisted, List.filterMap_cons_some hfailure]
    | skipped | withheld =>
      refine ⟨hnone, ?_⟩
      rw [List.filterMap_cons_none rfl, hlisted,
        List.filterMap_cons_none (by rw [lineFailure?, hresult]; rfl)]

/-- **A tale in good order tells what is sent up to the first failure.** -/
theorem sentUpTo_of_orderly (horderly : Orderly true false tale)
    (hentries : tale.map (fun d => (d.line, d.fate.result)) = lines.map fun l => (some l, result l)) :
    SentUpTo result lines (tale.filterMap Entry.answer?) (tale.filterMap Entry.failure?) := by
  induction tale generalizing lines with
  | nil =>
    rw [List.map_eq_nil_iff.mp hentries.symm]
    exact .whole nofun
  | cons d tale ih =>
    obtain ⟨line, lines, rfl, hd, hrest⟩ := List.map_eq_cons_iff.mp hentries.symm
    obtain ⟨hline, hresult⟩ := Prod.mk.inj hd
    obtain ⟨hfits, horderly⟩ := horderly
    obtain ⟨_, fate⟩ := d
    cases hline
    cases fate with
    | withheld st => cases hfits
    | skipped => exact (ih horderly hrest.symm).cons hresult
    | written st => exact (ih horderly hrest.symm).cons hresult
    | failed e =>
      obtain ⟨hnone, hlisted⟩ := orderly_behind horderly hrest.symm
      have hfailing : SentUpTo result ([] ++ line :: lines) _ _ := .failing nofun hresult
      rw [← hlisted] at hfailing
      rw [List.filterMap_cons_none rfl, hnone]
      exact hfailing
    | refused st message =>
      obtain ⟨hnone, hlisted⟩ := orderly_behind horderly hrest.symm
      have hrefused : SentUpTo result ([] ++ line :: lines) _
          (⟨some line, .write .statement message⟩ :: _) := .refused nofun hresult
      rw [← hlisted] at hrefused
      have hentry : Entry.answer? ⟨some line, .refused st message⟩ = some ((st : Request), some message) :=
        rfl
      rw [List.filterMap_cons_some hentry, hnone]
      exact hrefused

/-! ## 3. Runs -/

/-- The line is passed over. -/
def passedOver : Except Error (Option Statement) → Bool
  | .ok none => true
  | _ => false

theorem Fate.isSkipped_eq (fate : Fate) : fate.isSkipped = passedOver fate.result := by
  cases fate <;> rfl

/-- The lines that are passed over are those that come to no statement. -/
theorem countP_isSkipped
    (hentries : tale.map (fun d => (d.line, d.fate.result)) = lines.map fun l => (some l, result l)) :
    (tale.countP fun d => d.fate.isSkipped) = lines.countP fun l => passedOver (result l) := by
  have hskipped : (tale.countP fun d => d.fate.isSkipped)
      = (tale.map fun d => (d.line, d.fate.result)).countP fun r => passedOver r.2 := by
    rw [List.countP_map]
    exact List.countP_congr fun d _ => by rw [Fate.isSkipped_eq]; rfl
  rw [hskipped, hentries, List.countP_map]
  rfl

section Transactional

variable {w : Surroundings} {p : Plan} {template : Text}

/-- **A run in a transaction sends the statements of its lines up to the first failure**, and lists
    that failure and those of the lines behind it. It counts the lines that are passed over, before
    the failure and behind it. A failure of no line is listed only if no line has failed, and only
    then is a statement sent outside of the transaction. Where lines are read and the database
    refuses statements only, the run returns, unless it comes to a query at the end that it cannot
    log. -/
theorem run_sentUpTo (htransactional : p.transactional = true) (hsimulated : p.simulated = false)
    (hopens : Opens w p) (htemplate : template ≠ []) (lines : List Text)
    (hreports : Reports w p template (readLines p lines)) :
    let s := (run w p template (some lines)).2
    SentUpTo (lineResult w p template) (readLines p lines)
      (answers w.server Call.inside? s.connection.calls) s.lined ∧
    (s.skipped = (readLines p lines).countP fun line => passedOver (lineResult w p template line)) ∧
    (s.lined ≠ [] → s.failures = s.lined ∧ answers w.server Call.alone? s.connection.calls = []) ∧
    (makesBatches p = true → RefusesStatementsOnly w.server →
      ((run w p template (some lines)).1 = .ok () ↔ canLogEndQuery p = true ∨ s.isFailed = true)) := by
  obtain ⟨tale, ordered, htells, horderly, htold, hreturns⟩ :=
    run_told hsimulated hopens htemplate lines (Opened.ready_inside htransactional)
      inside?_of_opening
  obtain rfl := htells.reported hreports
  rw [htransactional] at horderly
  obtain ⟨fed, hanswers, hcalls, hconcluding⟩ := htold.fed
  dsimp only
  refine and_assoc.mp (and_assoc.mp ⟨?_, hreturns⟩)
  generalize (run w p template (some lines)).2 = s at htold hconcluding
  have hinside : answers w.server Call.inside? s.connection.calls = tale.filterMap Entry.answer? :=
    (hconcluding.answers_inside w.server).trans hanswers
  refine ⟨⟨?_, htold.skipped.trans (countP_isSkipped htells.entries)⟩,
    fun hlined => ⟨htold.unlined hlined, ?_⟩⟩
  · rw [hinside, htold.lined]
    exact sentUpTo_of_orderly horderly htells.entries
  · obtain ⟨late, hlate, hlength, _⟩ := hconcluding.answers_alone w.server
    have hfed : answers w.server Call.alone? fed.calls = [] := by
      rw [← List.append_nil fed.calls]
      refine answers_append (fun call hc => ?_) []
      rcases hcalls call hc with h | ⟨_, h⟩ | h
      all_goals cases call <;> first | rfl | cases h
    rw [if_neg hlined, Nat.le_zero, List.length_eq_zero_iff] at hlength
    rw [hfed, hlength] at hlate
    exact hlate

end Transactional

/-- Of four lines the first is written, the statement of the second is refused, the third cannot be
    read, and the last is passed over. -/
theorem run_sentUpTo_refusingSecond :
    let w : Surroundings := { obliging with server := refusingSecond Call.isRun }
    let p := inBatchesOf (.int 3)
    let lines : List Text := ["a", "b", "c(", "d:''"]
    let s := (run w p "{1}" (some lines)).2
    p.transactional = true ∧ p.simulated = false ∧ Opens w p ∧
    Reports w p "{1}" (readLines p lines) ∧ makesBatches p = true ∧
    SentUpTo (lineResult w p "{1}") (readLines p lines)
      (answers w.server Call.inside? s.connection.calls) s.lined ∧
    (s.skipped = (readLines p lines).countP fun line => passedOver (lineResult w p "{1}" line)) ∧
    (s.lined ≠ [] → s.failures = s.lined ∧ answers w.server Call.alone? s.connection.calls = []) ∧
    (run w p "{1}" (some lines)).1 = .ok () := by
  intro w p lines s
  have hopens : Opens w p := ⟨rfl, rfl⟩
  have hreports : Reports w p "{1}" (readLines p lines) := .of_expanded (by decide +kernel)
  have hbatches : makesBatches p = true := rfl
  have hserver : RefusesStatementsOnly w.server := refusesStatementsOnly_refusingSecond fun call h => by
    cases call <;> first | rfl | cases h
  obtain ⟨hsent, hskipped, hlined, hreturns⟩ :=
    run_sentUpTo rfl rfl hopens (List.cons_ne_nil _ _) lines hreports
  exact ⟨rfl, rfl, hopens, hreports, hbatches, hsent, hskipped, hlined,
    (hreturns hbatches hserver).mpr (.inl rfl)⟩

/-- **Lines that are not read are not sent.** With batches that are too great to be asked for, the
    statement of a line is not sent, although neither it nor another line has failed. -/
theorem immense_batches_unsent :
    let p := inBatchesOf (.int 9223372036854775808)
    let s := (run obliging p "a" (some ["b"])).2
    p.transactional = true ∧ p.simulated = false ∧ Opens obliging p ∧
    Reports obliging p "a" (number ["b"]) ∧
    ¬SentUpTo (lineResult obliging p "a") (number ["b"])
      (answers obliging.server Call.inside? s.connection.calls) s.lined := by
  intro p s
  refine ⟨rfl, rfl, ⟨rfl, rfl⟩, .of_expanded (by decide +kernel), fun h => ?_⟩
  have hnone : s.lined = [] := List.length_eq_zero_iff.mp (by decide +kernel)
  rw [hnone] at h
  have hlength := congrArg List.length h.complete
  revert hlength
  decide +kernel

end GraphFeed.Run
