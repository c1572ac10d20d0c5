import GraphFeed.Proofs.Containment
import GraphFeed.Proofs.Echo

/-!
# Settings that are accepted

`Settings.validate` checks six settings in order (`Setting.check`). What it refuses is a failure of
configuration, unless it compares what is no number. What it accepts makes a plan, and a run with that
plan ends well where the database refuses nothing, unless it meets a setting of which the checks know
nothing: a verbosity that is no number, a size of batches that is no number of lines, or a query at
the end that is to be logged and is no text (`Settings.Usable`).

* `Settings.validate_eq`: the first check that fails is what counts;
* `Setting.isConfiguration_of_check`: which failures of a check are failures of configuration;
* `Plan.ofSettings_of_validate`: **settings that are accepted make a plan**;
* `Run.feed_returns`: a run feeds its lines if it can put them into batches and nothing is refused;
* `validate_judges`: **when settings are judged rightly**, that is, refused by a failure of
  configuration, or accepted and fit for any run.
-/

namespace GraphFeed

/-! ## 1. Checks -/

namespace Value

/-- The value can be compared with a number. -/
def isNumber : Value → Bool
  | .bool _ | .int _ | .float _ => true
  | _ => false

/-- The value is a number of lines that a batch can ask for. -/
def isLineCount (v : Value) : Bool :=
  match v.index with
  | .ok n => decide (n ≤ Plan.maxLines)
  | .error _ => false

variable {v : Value}

theorem isNumber_eq (v : Value) (n : Int) : v.isNumber = (v.compareInt n).toBool := by
  cases v <;> rfl

theorem compareInt_of_noNumber (h : v.isNumber = false) (n : Int) :
    v.compareInt n = .error v.kind := by
  cases v with
  | bool | int | float => cases h
  | null | text | list | mapping => rfl

end Value

/-- A failure of configuration. -/
def Error.isConfiguration : Error → Bool
  | .recordMark .. | .settingsMissing _ | .settingsUnreadable _ => true
  | .notSingle .. | .unknownOutput _ | .notPositive .. => true
  | _ => false

namespace Setting

/-- The settings that are checked, in the order of their checks. -/
def checked : List Setting := [.separator, .quote, .output, .jobs, .batchSize, .execTimeout]

/-- The check of a setting. -/
def check (k : Setting) (v : Value) : Except Error Unit :=
  match k with
  | .separator => Settings.checkSingle .delimiter v
  | .quote => Settings.checkSingle .quote v
  | .output => if (OutputMode.ofValue? v).isNone then .error (.unknownOutput v) else .ok ()
  | .jobs => Settings.checkCount .jobs v
  | .batchSize => Settings.checkCount .batchSize v
  | .execTimeout => Settings.checkTimeout v
  | _ => .ok ()

/-- The check compares the setting with a number. -/
def isMeasured : Setting → Bool
  | .jobs | .batchSize | .execTimeout => true
  | _ => false

variable {v : Value} {e : Error}

/-- A count is refused for its number, or because it has none. -/
theorem isConfiguration_of_checkCount {setting : PositiveSetting}
    (h : Settings.checkCount setting v = .error e) : e.isConfiguration = v.isNumber := by
  unfold Settings.checkCount at h
  split at h
  · rename_i hcompare
    cases h
    rw [v.isNumber_eq 1, hcompare]
    rfl
  · cases h
  · rename_i hcompare
    cases h
    rw [v.isNumber_eq 1, hcompare]
    rfl

theorem isConfiguration_of_checkTimeout (h : Settings.checkTimeout v = .error e) :
    e.isConfiguration = v.isNumber := by
  unfold Settings.checkTimeout at h
  split at h
  · split at h
    all_goals rename_i hcompare
    all_goals cases h
    all_goals rw [v.isNumber_eq 0, hcompare]
    all_goals rfl
  · cases h

theorem isConfiguration_of_checkSingle {mark : RecordMark}
    (h : Settings.checkSingle mark v = .error e) : e.isConfiguration = true := by
  unfold Settings.checkSingle at h
  split at h <;> cases h
  rfl

/-- **A check fails by a failure of configuration**, unless it compares what is no number. -/
theorem isConfiguration_of_check {k : Setting} (h : k.check v = .error e) :
    e.isConfiguration = true ↔ (k.isMeasured = true → v.isNumber = true) := by
  cases k with
  | separator | quote => exact ⟨fun _ => nofun, fun _ => isConfiguration_of_checkSingle h⟩
  | output =>
    unfold check at h
    dsimp only at h
    split at h <;> cases h
    exact ⟨fun _ => nofun, fun _ => rfl⟩
  | jobs | batchSize =>
    rw [isConfiguration_of_checkCount h]
    exact ⟨fun hv _ => hv, fun hv => hv rfl⟩
  | execTimeout =>
    rw [isConfiguration_of_checkTimeout h]
    exact ⟨fun hv _ => hv, fun hv => hv rfl⟩
  | shell | keepBlank | testOnly | stream | endQuery | showResults | verbosity | uri | user | password
  | database => cases h

end Setting

/-! ## 2. Validation -/

namespace Settings

variable {settings : Settings}

/-- The first setting that its check refuses. -/
def firstRefused? (settings : Settings) : Option Setting :=
  Setting.checked.find? fun k => !(k.check (settings k)).toBool

/-- Checks settings in order, until one is refused. -/
def checkEach (settings : Settings) : List Setting → Except Error Unit
  | [] => .ok ()
  | k :: rest => (k.check (settings k)).bind fun _ => settings.checkEach rest

theorem validate_eq_checkEach (settings : Settings) :
    settings.validate = settings.checkEach Setting.checked := by
  unfold validate
  simp only [checkEach, Setting.checked, Setting.check]
  cases checkSingle .delimiter (settings .separator) with
  | error e => rfl
  | ok =>
    cases checkSingle .quote (settings .quote) with
    | error e => rfl
    | ok =>
      split
      · rfl
      · cases checkCount .jobs (settings .jobs) with
        | error e => rfl
        | ok =>
          cases checkCount .batchSize (settings .batchSize) with
          | error e => rfl
          | ok => cases checkTimeout (settings .execTimeout) <;> rfl

/-- To check settings in order is to find the first that is refused. -/
theorem checkEach_eq (ks : List Setting) : settings.checkEach ks =
    match ks.find? fun k => !(k.check (settings k)).toBool with
    | some k => k.check (settings k)
    | none => .ok () := by
  induction ks with
  | nil => rfl
  | cons k rest ih =>
    rw [checkEach, List.find?_cons]
    cases hk : k.check (settings k) with
    | error e => simp only [Except.toBool, Bool.not_false, hk]; rfl
    | ok => exact ih

/-- **The first check that fails is what counts.** -/
theorem validate_eq (settings : Settings) : settings.validate =
    match settings.firstRefused? with
    | some k => k.check (settings k)
    | none => .ok () :=
  settings.validate_eq_checkEach.trans (checkEach_eq Setting.checked)

/-- **What is accepted passes all checks.** -/
theorem validate_ok (h : settings.validate = .ok ()) (k : Setting) : k.check (settings k) = .ok () := by
  rw [validate_eq] at h
  by_cases hk : k ∈ Setting.checked
  · split at h
    · rename_i j hj
      have hrefused := List.find?_some hj
      rw [h] at hrefused
      cases hrefused
    · rename_i hnone
      have hpassed := List.find?_eq_none.mp hnone k hk
      cases hcheck : k.check (settings k) with
      | error e => rw [hcheck] at hpassed; exact absurd rfl hpassed
      | ok => rfl
  · -- any other setting has no check
    cases k <;> first | rfl | exact absurd (by decide) hk

end Settings

/-! ## 3. Plans -/

namespace Setting

variable {v : Value}

theorem isNumber_of_checkCount {setting : PositiveSetting}
    (h : Settings.checkCount setting v = .ok ()) : v.isNumber = true := by
  unfold Settings.checkCount at h
  split at h
  · cases h
  · rename_i hcompare
    rw [v.isNumber_eq 1, hcompare]
    rfl
  · cases h

/-- A whole number that passes as a count is at least one. -/
theorem one_le_of_checkCount {setting : PositiveSetting} {n : Int}
    (h : Settings.checkCount setting v = .ok ()) (hn : v.index = .ok n) : 1 ≤ n := by
  have hcompare : v.compareInt 1 = .ok (some (compare n 1)) := by
    cases v with
    | bool b => cases hn; rfl
    | int m => cases hn; rfl
    | null | float | text | list | mapping => cases hn
  refine Int.not_lt.mp fun hlt => ?_
  rw [Settings.checkCount, hcompare, Int.compare_eq_lt.mpr hlt] at h
  cases h

end Setting

namespace Plan

variable {settings : Settings}

theorem readMark_of_checkSingle {mark : RecordMark} {v : Value}
    (h : Settings.checkSingle mark v = .ok ()) : ∃ c, readMark mark v = .ok c := by
  unfold Settings.checkSingle at h
  split at h
  · exact ⟨_, rfl⟩
  · cases h

theorem readOutput_of_check {v : Value} (h : Setting.output.check v = .ok ()) :
    ∃ mode, readOutput v = .ok mode := by
  unfold Setting.check at h
  unfold readOutput
  cases hmode : OutputMode.ofValue? v with
  | none => rw [hmode] at h; cases h
  | some mode => exact ⟨mode, rfl⟩

theorem readStrategy_of_number {v : Value} (h : v.isNumber = true) :
    ∃ strategy, readStrategy v = .ok strategy := by
  unfold readStrategy
  split
  · exact ⟨_, rfl⟩
  · exact ⟨_, rfl⟩
  · rename_i hcompare
    rw [v.isNumber_eq 1, hcompare] at h
    cases h

/-- **Settings that are accepted make a plan.** -/
theorem ofSettings_of_validate (h : settings.validate = .ok ()) (host : Host) :
    ∃ p, ofSettings settings host = .ok p := by
  have hpassed := Settings.validate_ok h
  obtain ⟨output, houtput⟩ := readOutput_of_check (hpassed .output)
  obtain ⟨delimiter, hdelimiter⟩ := readMark_of_checkSingle (hpassed .separator)
  obtain ⟨quote, hquote⟩ := readMark_of_checkSingle (hpassed .quote)
  obtain ⟨strategy, hstrategy⟩ :=
    readStrategy_of_number (Setting.isNumber_of_checkCount (hpassed .jobs))
  unfold ofSettings
  rw [houtput, hdelimiter, hquote, hstrategy]
  exact ⟨_, rfl⟩

/-- A number that is no number of lines is refused when lines are asked for. -/
theorem lineLimit_of_noLineCount {p : Plan} (hnumber : p.batches.size.isNumber = true)
    (h : p.batches.size.isLineCount = false) : p.lineLimit = .error .batchLimit := by
  unfold lineLimit
  split
  · rename_i hsize
    rw [hsize] at hnumber
    cases hnumber
  · split
    · rename_i n hn
      rw [Value.isLineCount, hn] at h
      exact if_neg fun hbounds => of_decide_eq_false h hbounds.2
    · rfl

end Plan

end GraphFeed

namespace GraphFeed.Run

open GraphFeed.Graph

variable {w : Surroundings} {p : Plan}

/-! ## 4. Runs in which nothing is refused -/

section Accepted

variable (hserver : AcceptsAll w.server)

include hserver

theorem opens_of_acceptsAll (hverbosity : p.checkVerbosity = .ok ()) : Opens w p where
  verbosity := hverbosity
  connection := by
    unfold openGraph
    split
    · rfl
    · have hconnect := fun s : State => hserver.refusesStatementsOnly.connect s.connection
      dsimp only
      rw [Ending.andThen_of_ok (hconnect _)]
      split
      · exact hserver.begin _
      · rfl

theorem send_returns (st : Statement) (s : State) : (send w p st s).1 = .ok () := by
  unfold send
  split
  · rfl
  · dsimp only
    split
    · rfl
    · generalize s.noteIf (p.isAbove 1) .debug (statementNotice st) = s'
      obtain ⟨rows, hrows⟩ := hserver.run s'.connection st.query st.parameters
      unfold post
      revert hrows
      rcases s'.connection.run w.server st.query st.parameters with ⟨_ | _, c⟩
      · exact nofun
      · exact fun _ => rfl

theorem handle_returns (x : Expanded) (s : State) : (handle w p x s).1 = .ok () := by
  cases hx : x.instruction.bind (compile w p) with
  | error e => rw [handle_of_error hx]; rfl
  | ok statement? =>
    cases statement? with
    | none =>
      obtain ⟨notice, hhandle⟩ := handle_of_none (w := w) hx s
      rw [hhandle]
      rfl
    | some st =>
      have hsent := send_returns (p := p) hserver st (s.shown p x)
      rw [handle_of_some hx, listing_of_ok hsent, hsent]

theorem handleAll_returns (xs : List Expanded) : ∀ s : State, (handleAll w p xs s).1 = .ok () := by
  induction xs with
  | nil => exact fun _ => rfl
  | cons x xs ih =>
    intro s
    rw [handleAll, Ending.andThen_of_ok (handle_returns hserver x s)]
    exact ih _

theorem workOff_returns {n : Int} (hn : p.batches.size.index = .ok n) (hpos : 0 < n)
    (hworkers : p.batches.hasWorkers = true) (template : Text) (number : Nat) (batch : List Line)
    (s : State) : (workOff w p template number batch s).1 = .ok () := by
  obtain ⟨report, hreport⟩ := Batch.process_of_hasWorkers (expandOne w p template) hn hpos
    hworkers (fun _ => w.orders number) batch
  unfold workOff
  simp only [hreport]
  rw [Ending.andThen_of_ok (handleAll_returns hserver _ _)]
  rfl

theorem workOffAll_returns {n : Int} (hn : p.batches.size.index = .ok n) (hpos : 0 < n)
    (hworkers : p.batches.hasWorkers = true) (template : Text) (parts : List (List Line)) :
    ∀ (number : Nat) (s : State), (workOffAll w p template number parts s).1 = .ok () := by
  induction parts with
  | nil => exact fun _ _ => rfl
  | cons batch parts ih =>
    intro number s
    rw [workOffAll, Ending.andThen_of_ok (workOff_returns hserver hn hpos hworkers ..)]
    exact ih _ _

/-- **Lines are fed** where batches are made and nothing is refused. -/
theorem feed_returns (hbatches : makesBatches p = true) (template : Text)
    (lines : Option (List Text)) (s : State) : (feed w p template lines s).1 = .ok () := by
  unfold feed
  cases lines with
  | none =>
    dsimp only
    split
    · rfl
    · exact handle_returns hserver _ s
  | some lines =>
    dsimp only
    split
    · rfl
    · obtain ⟨n, parts, hn, hpos, hworkers, _, hwork⟩ :=
        processLines_of_makesBatches hbatches w template lines _
      rw [hwork]
      exact workOffAll_returns hserver hn hpos hworkers template parts 0 _

/-- A run with a verbosity that can be compared is its feeding, concluded. -/
theorem run_ending (hverbosity : p.checkVerbosity = .ok ()) (template : Text)
    (lines : Option (List Text)) :
    ∃ s : State, s.failures = [] ∧
      run w p template lines = conclude w p (feed w p template lines s) := by
  obtain ⟨s, _, hledger, hrun⟩ := run_of_able (opens_of_acceptsAll hserver hverbosity) template lines
  exact ⟨s, congrArg Ledger.failures hledger, hrun⟩

/-- A fault while lines are fed is how the run ends. -/
theorem conclude_of_fault {r : Ending} {e : Error} (h : r.1 = .error e) (he : e.isReported = false) :
    (conclude w p r).1 = .error e := by
  unfold conclude
  rw [Ending.andThen_of_error h, recover_of_fault h he]
  obtain ⟨c, hclosing⟩ := closing_of_accepted (p := p) hserver.refusesStatementsOnly r
  rw [hclosing]
  exact h

end Accepted

end GraphFeed.Run

namespace GraphFeed

open GraphFeed.Graph

/-! ## 5. Judgement -/

/-- The query at the end is to be logged: nothing is sent, or the verbosity is above one. -/
def Settings.logsEndQuery (settings : Settings) : Bool :=
  (settings .testOnly).isTrue ||
    match (settings .verbosity).compareInt 1 with
    | .ok (some .gt) => true
    | _ => false

/-- **What a run needs of settings beside their checks**: that its verbosity can be compared, that a
    batch can ask for its number of lines, and that a query at the end is a text if it is to be
    logged. -/
structure Settings.Usable (settings : Settings) : Prop where
  verbosity : (settings .verbosity).isNumber = true
  batchSize : (settings .batchSize).isLineCount = true
  endQuery : (settings .endQuery).isTrue = true → settings.logsEndQuery = true →
    (settings .endQuery).kind = .text

namespace Run

variable {settings : Settings} {host : Host} {p : Plan} {w : Surroundings}

theorem checkVerbosity_of_number (hp : Plan.ofSettings settings host = .ok p)
    (h : (settings .verbosity).isNumber = true) : p.checkVerbosity = .ok () := by
  obtain ⟨_, _, _, _, _, _, _, _, hplan⟩ := ofSettings_eq_ok hp
  have hverbosity : p.verbosity = settings .verbosity := by rw [hplan]
  rw [← hverbosity, p.verbosity.isNumber_eq 0] at h
  unfold Plan.checkVerbosity
  cases hcompare : p.verbosity.compareInt 0 with
  | ok => rfl
  | error kind => rw [hcompare] at h; cases h

/-- A run can log its query at the end unless it has to and the query is no text. -/
theorem canLogEndQuery_iff (hp : Plan.ofSettings settings host = .ok p) : canLogEndQuery p = true ↔
    ((settings .endQuery).isTrue = true → settings.logsEndQuery = true →
      (settings .endQuery).kind = .text) := by
  obtain ⟨_, _, _, _, _, _, _, _, hplan⟩ := ofSettings_eq_ok hp
  have hlogs : (p.isAbove 1 || p.simulated) = settings.logsEndQuery := by
    rw [hplan, Bool.or_comm]
    rfl
  have hquery : p.endQuery = if (settings .endQuery).isTrue then some (settings .endQuery) else none := by
    rw [hplan]
  unfold canLogEndQuery
  rw [hquery, hlogs]
  generalize settings .endQuery = query
  cases htrue : query.isTrue with
  | false => exact iff_of_true rfl nofun
  | true =>
    cases query with
    | text t => exact iff_of_true rfl fun _ _ => rfl
    | null | bool | int | float | list | mapping =>
      cases settings.logsEndQuery with
      | false => exact iff_of_true rfl fun _ => nofun
      | true => exact iff_of_false nofun fun h => nomatch h rfl rfl

/-- **A run with settings that are accepted and can be used returns.** -/
theorem run_of_usable (hp : Plan.ofSettings settings host = .ok p)
    (hvalid : settings.validate = .ok ()) (husable : settings.Usable) (hserver : AcceptsAll w.server)
    (template : Text) (lines : Option (List Text)) : (run w p template lines).1 = .ok () := by
  have hcount := husable.batchSize
  unfold Value.isLineCount at hcount
  split at hcount
  · rename_i n hn
    have hpos : 1 ≤ n := Setting.one_le_of_checkCount (Settings.validate_ok hvalid .batchSize) hn
    have hbatches := makesBatches_of_index hp hn hpos (of_decide_eq_true hcount)
    have hverbosity := checkVerbosity_of_number hp husable.verbosity
    obtain ⟨s, _, hrun⟩ := run_ending hserver hverbosity template lines
    have hfed := feed_returns hserver hbatches template lines s
    have hlog := (canLogEndQuery_iff hp).mpr husable.endQuery
    rw [hrun]
    exact conclude_returns hserver.refusesStatementsOnly hfed (.inl hlog)
  · cases hcount

/-- A verbosity that cannot be compared ends a run before it begins. -/
theorem run_of_noNumber (hp : Plan.ofSettings settings host = .ok p)
    (h : (settings .verbosity).isNumber = false) (template : Text) (lines : Option (List Text)) :
    (run w p template lines).1 = .error (.incomparable .greater (settings .verbosity).kind) := by
  obtain ⟨_, _, _, _, _, _, _, _, hplan⟩ := ofSettings_eq_ok hp
  have hcheck : p.checkVerbosity = .error (.incomparable .greater (settings .verbosity).kind) := by
    rw [Plan.checkVerbosity, show p.verbosity = settings .verbosity by rw [hplan],
      Value.compareInt_of_noNumber h]
  unfold run
  dsimp only
  rw [hcheck]

/-- A size of batches that is no number of lines ends a run when it comes to its lines. -/
theorem run_of_noLineCount (hp : Plan.ofSettings settings host = .ok p)
    (hvalid : settings.validate = .ok ()) (hnumber : (settings .verbosity).isNumber = true)
    (h : (settings .batchSize).isLineCount = false) (hserver : AcceptsAll w.server) {template : Text}
    (htemplate : template ≠ []) (lines : List Text) :
    (run w p template (some lines)).1 = .error .batchLimit := by
  obtain ⟨_, _, _, _, _, _, _, _, hplan⟩ := ofSettings_eq_ok hp
  have hsize : p.batches.size = settings .batchSize := by rw [hplan]; rfl
  have hlimit : p.lineLimit = .error .batchLimit := by
    refine Plan.lineLimit_of_noLineCount ?_ (by rw [hsize]; exact h)
    rw [hsize]
    exact Setting.isNumber_of_checkCount (Settings.validate_ok hvalid .batchSize)
  obtain ⟨s, _, hrun⟩ :=
    run_ending hserver (checkVerbosity_of_number hp hnumber) template (some lines)
  have hfed : (feed w p template (some lines) s).1 = .error .batchLimit := by
    unfold feed
    dsimp only
    rw [if_neg (fun hempty => htemplate (List.isEmpty_iff.mp hempty)), processLines, hlimit]
  rw [hrun]
  exact conclude_of_fault hserver hfed rfl

/-- A query that cannot be logged ends a run at its end, even if there was nothing to do before. -/
theorem run_of_cannot (hverbosity : p.checkVerbosity = .ok ()) (hlog : canLogEndQuery p = false)
    (hserver : AcceptsAll w.server) :
    ∃ e, e.isReported = false ∧ (run w p [] none).1 = .error e := by
  obtain ⟨s, hnone, hrun⟩ := run_ending hserver hverbosity [] none
  obtain ⟨e, _, hfault, hconclude⟩ :=
    conclude_of_cannot (r := .well s) hserver.refusesStatementsOnly rfl hlog hnone
  refine ⟨e, hfault, ?_⟩
  rw [hrun]
  exact congrArg Prod.fst hconclude

end Run

open Run

/-- **Settings are judged rightly**: they are refused by a failure of configuration, or they are
    accepted, and no run with them ends by a fault, whatever its template and its lines, where the
    database refuses nothing. -/
def Settings.Judged (settings : Settings) : Prop :=
  (∃ e, settings.validate = .error e ∧ e.isConfiguration = true) ∨
  (settings.validate = .ok () ∧ ∀ host, ∃ p, Plan.ofSettings settings host = .ok p ∧
    ∀ (w : Surroundings) (template : Text) (lines : Option (List Text)), AcceptsAll w.server →
      ∀ e, (run w p template lines).1 = .error e → e.isReported = true)

namespace Settings

variable {settings : Settings} {k : Setting}

theorem judged_of_refused (h : settings.firstRefused? = some k) : settings.Judged ↔
    (k.isMeasured = true → (settings k).isNumber = true) := by
  have hvalidate : settings.validate = k.check (settings k) := by rw [validate_eq, h]
  have hrefused := List.find?_some h
  cases hk : k.check (settings k) with
  | ok => rw [hk] at hrefused; cases hrefused
  | error e =>
    rw [hk] at hvalidate
    rw [← Setting.isConfiguration_of_check hk]
    constructor
    · rintro (⟨e', he', hconfiguration⟩ | ⟨hok, _⟩)
      · rw [hvalidate] at he'
        cases he'
        exact hconfiguration
      · rw [hvalidate] at hok
        cases hok
    · exact fun hconfiguration => .inl ⟨e, hvalidate, hconfiguration⟩

theorem validate_of_passed (h : settings.firstRefused? = none) : settings.validate = .ok () := by
  rw [validate_eq, h]

/-- **Settings that pass their checks are judged rightly exactly if they can be used.** That they cannot
    be used shows in a run of one line, or of none. -/
theorem judged_of_passed (h : settings.firstRefused? = none) : settings.Judged ↔ settings.Usable := by
  have hvalid := validate_of_passed h
  constructor
  · intro hjudged
    -- they are accepted, so it is their runs that are judged
    obtain ⟨_, hplan⟩ := hjudged.resolve_left fun ⟨_, he, _⟩ => nomatch hvalid.symm.trans he
    obtain ⟨p, hp, hruns⟩ := hplan bareHost
    have hnumber : (settings .verbosity).isNumber = true := by
      refine Bool.of_not_eq_false fun hverbosity => ?_
      have hrun := run_of_noNumber (w := obliging) hp hverbosity [] none
      exact absurd (hruns obliging [] none (fun _ _ => rfl) _ hrun) nofun
    refine ⟨hnumber, Bool.of_not_eq_false fun hcount => ?_, (canLogEndQuery_iff hp).mp ?_⟩
    · have hrun := run_of_noLineCount (w := obliging) hp hvalid hnumber hcount (fun _ _ => rfl)
        (List.cons_ne_nil _ _ : ("a" : Text) ≠ []) ["b"]
      exact absurd (hruns obliging "a" (some ["b"]) (fun _ _ => rfl) _ hrun) nofun
    · refine Bool.of_not_eq_false fun hlog => ?_
      obtain ⟨e, hfault, hrun⟩ := run_of_cannot (w := obliging) (checkVerbosity_of_number hp hnumber)
        hlog fun _ _ => rfl
      have hreported := hruns obliging [] none (fun _ _ => rfl) e hrun
      rw [hfault] at hreported
      cases hreported
  · intro husable
    refine .inr ⟨hvalid, fun host => ?_⟩
    obtain ⟨p, hp⟩ := Plan.ofSettings_of_validate hvalid host
    refine ⟨p, hp, fun w template lines hserver e he => ?_⟩
    rw [run_of_usable hp hvalid husable hserver] at he
    cases he

end Settings

/-- **When settings are judged rightly.** If a check fails, they are unless it compares what is no number.
    If none does, they are exactly if their verbosity is a number, their size of batches a number of
    lines, and their query at the end a text where it is to be logged; and then every run with them
    returns. -/
theorem validate_judges (settings : Settings) :
    (∀ k, settings.firstRefused? = some k →
      (settings.Judged ↔ (k.isMeasured = true → (settings k).isNumber = true))) ∧
    (settings.firstRefused? = none →
      (settings.Judged ↔ settings.Usable) ∧
      (settings.Usable → ∀ host p, Plan.ofSettings settings host = .ok p →
        ∀ (w : Surroundings) (template : Text) (lines : Option (List Text)),
          AcceptsAll w.server → (run w p template lines).1 = .ok ())) := by
  refine ⟨fun k => Settings.judged_of_refused, fun hpassed => ?_⟩
  refine ⟨Settings.judged_of_passed hpassed, fun husable host p hp w template lines hserver => ?_⟩
  exact run_of_usable hp (Settings.validate_of_passed hpassed) husable hserver template lines

/-- Two and a half jobs, one line in a batch because that is true, a verbosity that is not a number and
    a number as the query at the end can all be used. -/
theorem validate_judges_oddNumbers :
    let settings := Settings.ofLayer bareHost.processors [
      (.text "jobs", .float (.finite false 5629499534213120 (-51))),
      (.text "batch_size", .bool true), (.text "verbosity", .float .nan), (.text "end_query", .int 5)]
    settings.firstRefused? = none ∧ settings.Usable ∧ settings.Judged := by
  intro settings
  have hpassed : settings.firstRefused? = none := by decide +kernel
  have husable : settings.Usable := ⟨rfl, rfl, fun _ hlogs => absurd hlogs (by decide +kernel)⟩
  exact ⟨hpassed, husable, ((validate_judges settings).2 hpassed).1.mpr husable⟩

/-- **A number of jobs that is a text is refused by a fault. One line and a half is accepted** as the
    size of batches, **and so is a number as the query at the end** of a simulated run: either then ends
    a run by a fault. -/
theorem misjudged :
    let given := Settings.ofLayer bareHost.processors
    let wordy := given (.single .jobs (.text "x"))
    let half := given (.single .batchSize (.float (.finite false 6755399441055744 (-52))))
    let numbered := given [(.text "end_query", .int 5), (.text "test_only", .bool true)]
    (wordy.validate = .error (.incomparable .less .text) ∧ ¬wordy.Judged) ∧
      (half.validate = .ok () ∧ ¬half.Judged) ∧
      numbered.validate = .ok () ∧ ¬numbered.Judged := by
  intro given wordy half numbered
  have hwordy : wordy.firstRefused? = some .jobs := by decide +kernel
  have hhalf : half.firstRefused? = none := by decide +kernel
  have hnumbered : numbered.firstRefused? = none := by decide +kernel
  refine ⟨⟨rfl, fun h => ?_⟩, ⟨Settings.validate_of_passed hhalf, fun h => ?_⟩,
    Settings.validate_of_passed hnumbered, fun h => ?_⟩
  · exact absurd ((Settings.judged_of_refused hwordy).mp h rfl) nofun
  · exact absurd ((Settings.judged_of_passed hhalf).mp h).batchSize (by decide)
  · exact absurd (((Settings.judged_of_passed hnumbered).mp h).endQuery rfl rfl) nofun

end GraphFeed
