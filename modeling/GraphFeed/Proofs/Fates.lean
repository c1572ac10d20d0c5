import GraphFeed.Proofs.Rebatching

/-!
# What becomes of lines

What a line comes to (`lineResult`) does not tell what becomes of it: its statement may be written, or
refused, or withheld because the transaction has failed before. A `Fate` tells, and a tale has one
entry for each expansion that is handled.

* `answers`: the statements that a history of calls has sent, each with the reason for which it was
  refused, if it was;
* `handle_of_error`, `handle_of_none`, `handle_of_some`: all that handling an expansion can do;
* `Account`: what a tale adds to the calls, the counts and the failures of a state;
* `handle_account`, `handleAll_account`: **handled expansions have a tale that accounts for them**, in
  a transaction as well as outside of one. Statements are withheld just where the transaction has
  failed before (`Orderly`).
-/

namespace GraphFeed.Graph

/-! ## 1. Answers to statements -/

namespace Call

/-- What a call runs in a transaction. -/
def inside? : Call → Option Request
  | .run _ query parameters => some ⟨query, parameters⟩
  | _ => none

/-- What a call runs outside of transactions. -/
def alone? : Call → Option Request
  | .runAlone _ query parameters => some ⟨query, parameters⟩
  | _ => none

end Call

variable (server : Server) (kind : Call → Option Request)

/-- What calls of a kind have asked to be run, in its order, each with the reason for which it was
    refused, if it was. -/
def answers : List Call → List (Request × Option Text)
  | [] => []
  | call :: earlier =>
    answers earlier ++ ((kind call).map fun r => (r, refusal? server earlier call)).toList

variable {server kind}

theorem answers_of_none {call : Call} (h : kind call = none) (earlier : List Call) :
    answers server kind (call :: earlier) = answers server kind earlier := by
  rw [answers, h]
  exact List.append_nil _

theorem answers_of_some {call : Call} {r : Request} (h : kind call = some r)
    (earlier : List Call) : answers server kind (call :: earlier)
      = answers server kind earlier ++ [(r, refusal? server earlier call)] := by
  rw [answers, h]
  rfl

/-- Calls of another kind send no statements of this one. -/
theorem answers_append {more : List Call} (h : ∀ call ∈ more, kind call = none)
    (calls : List Call) : answers server kind (more ++ calls) = answers server kind calls := by
  induction more with
  | nil => rfl
  | cons call more ih =>
    rw [List.cons_append, answers_of_none (h call List.mem_cons_self),
      ih fun c hc => h c (List.mem_cons_of_mem _ hc)]

/-- There is a session, and statements are sent by calls of a kind. -/
structure Ready (kind : Call → Option Request) (k : Link) : Prop where
  session : k.session.isSome = true
  call : ∀ r, ∃ call, k.call? r = some call ∧ kind call = some r

theorem Ready.inside {k : Link} {t : Handle} (hs : k.session.isSome = true)
    (ht : k.transaction = some t) : Ready Call.inside? k := by
  refine ⟨hs, fun r => ⟨.run t r.query r.parameters, ?_, rfl⟩⟩
  rw [Link.call?, ht]

theorem Ready.alone {k : Link} (hs : k.session.isSome = true) (ht : k.transaction = none) :
    Ready Call.alone? k := by
  obtain ⟨session, hsession⟩ := Option.isSome_iff_exists.mp hs
  refine ⟨hs, fun r => ⟨.runAlone session r.query r.parameters, ?_, rfl⟩⟩
  rw [Link.call?, ht, hsession]
  rfl

/-- Only the session and the transaction matter. -/
theorem Ready.of_eq {k k' : Link} (h : Ready kind k) (hs : k'.session = k.session)
    (ht : k'.transaction = k.transaction) : Ready kind k' := by
  refine ⟨by rw [hs]; exact h.session, fun r => ?_⟩
  have hcall : k'.call? r = k.call? r := by rw [Link.call?, Link.call?, hs, ht]
  rw [hcall]
  exact h.call r

end GraphFeed.Graph

namespace GraphFeed.Run

open GraphFeed.Graph

variable {w : Surroundings} {p : Plan} {s s' s'' : State} {x : Expanded}

/-! ## 2. What handling can do -/

/-- The state in which an expansion is written: what is to be shown of it is printed. -/
def State.shown (p : Plan) (x : Expanded) (s : State) : State :=
  match x.instruction with
  | .error _ => s.showLine p x.line
  | .ok instruction =>
    if p.output = .interpolated then (s.showLine p x.line).print instruction
    else s.showLine p x.line

/-- What is printed of an expansion, the latest line first. -/
def shownLines (mode : OutputMode) (x : Expanded) : List Text :=
  (match x.instruction with
    | .error _ => []
    | .ok instruction => if mode = .interpolated then [instruction] else []) ++
  (match x.line with
    | none => []
    | some line => if mode = .pipe then [line.text] else [])

theorem ledger_showLine (s : State) (p : Plan) (x : Expanded) :
    (s.showLine p x.line).ledger = { s.ledger with printed := (match x.line with
      | none => []
      | some line => if p.output = .pipe then [line.text] else []) ++ s.printed } := by
  cases x.line with
  | none => rfl
  | some line =>
    unfold State.showLine
    dsimp only
    rw [ledger_noteIf]
    split <;> rfl

/-- Showing an expansion prints its lines, and does nothing else. -/
theorem ledger_shown (s : State) (p : Plan) (x : Expanded) :
    (s.shown p x).ledger = { s.ledger with printed := shownLines p.output x ++ s.printed } := by
  have hline := ledger_showLine s p x
  unfold State.shown shownLines
  cases x.instruction with
  | error e => exact hline
  | ok instruction =>
    dsimp only
    split
    · have hprinted := congrArg (fun l => { l with printed := instruction :: l.printed : Ledger }) hline
      exact hprinted
    · exact hline

theorem tally_shown (s : State) (p : Plan) (x : Expanded) : (s.shown p x).tally = s.tally :=
  congrArg (fun l => (l.expressions, l.skipped, l.failures)) (ledger_shown s p x)

@[simp] theorem link_shown (s : State) (p : Plan) (x : Expanded) : (s.shown p x).link = s.link := by
  rw [← link_showLine s p x.line]
  unfold State.shown
  split
  · rfl
  · split <;> rfl

/-- An expansion that comes to a failure is shown, and the failure is listed. -/
theorem handle_of_error {e : Error} (h : x.instruction.bind (compile w p) = .error e) (s : State) :
    handle w p x s = .well ((s.shown p x).fail x.line e) := by
  unfold handle State.shown
  cases hx : x.instruction with
  | error e' =>
    rw [hx] at h
    cases h
    rfl
  | ok instruction =>
    rw [hx] at h
    cases hread : Instruction.read w.parser instruction with
    | ok i => rw [Except.bind, compile, hread] at h; cases h
    | error e' =>
      rw [Except.bind, compile, hread] at h
      cases h
      unfold write
      dsimp only
      rw [hread]
      exact listing_of_reported rfl (isReported_read hread)

/-- An expansion that comes to no statement is shown and counted. -/
theorem handle_of_none (h : x.instruction.bind (compile w p) = .ok none) (s : State) :
    ∃ notice : LogRecord, handle w p x s
      = .well { (s.shown p x).record notice with skipped := (s.shown p x).skipped + 1 } := by
  unfold handle State.shown
  cases hx : x.instruction with
  | error e' => rw [hx] at h; cases h
  | ok instruction =>
    rw [hx] at h
    cases hread : Instruction.read w.parser instruction with
    | error e' => rw [Except.bind, compile, hread] at h; cases h
    | ok i =>
      rw [Except.bind, compile, hread] at h
      have hnone : Statement.ofInstruction p.keepBlank i = none := Except.ok.inj h
      refine ⟨i.skipNotice, ?_⟩
      unfold write
      dsimp only
      rw [hread]
      dsimp only
      rw [hnone]
      rfl

/-- An expansion that comes to a statement is shown, and the statement is sent. -/
theorem handle_of_some {st : Statement} (h : x.instruction.bind (compile w p) = .ok (some st))
    (s : State) : handle w p x s = (send w p st (s.shown p x)).listing x.line := by
  unfold handle State.shown
  cases hx : x.instruction with
  | error e' => rw [hx] at h; cases h
  | ok instruction =>
    rw [hx] at h
    cases hread : Instruction.read w.parser instruction with
    | error e' => rw [Except.bind, compile, hread] at h; cases h
    | ok i =>
      rw [Except.bind, compile, hread] at h
      have hsome : Statement.ofInstruction p.keepBlank i = some st := Except.ok.inj h
      unfold write
      dsimp only
      rw [hread]
      dsimp only
      rw [hsome]

/-! ## 3. Fates -/

/-- What becomes of a line that is handled. -/
inductive Fate
  /-- It cannot be expanded or read. -/
  | failed (e : Error)
  /-- It is passed over. -/
  | skipped
  /-- Its statement is not sent, because the transaction has failed before. -/
  | withheld (st : Statement)
  | written (st : Statement)
  | refused (st : Statement) (message : Text)

namespace Fate

/-- What the line comes to. -/
def result : Fate → Except Error (Option Statement)
  | failed e => .error e
  | skipped => .ok none
  | withheld st | written st | refused st _ => .ok (some st)

/-- The failure that is listed. -/
def error? : Fate → Option Error
  | failed e => some e
  | refused _ message => some (.write .statement message)
  | _ => none

/-- The statement that is sent, and why it is refused, if it is. -/
def answer? : Fate → Option (Request × Option Text)
  | written st => some (st, none)
  | refused st message => some (st, some message)
  | _ => none

def isSkipped : Fate → Bool
  | skipped => true
  | _ => false

def isWritten : Fate → Bool
  | written _ => true
  | _ => false

/-- A statement is withheld or sent, depending on whether the transaction has failed. -/
def fits (held : Bool) : Fate → Bool
  | withheld _ => held
  | written _ | refused .. => !held
  | _ => true

end Fate

/-- A line, if there is one, and what becomes of it. -/
structure Entry where
  line : Option Line
  fate : Fate

/-- The failure that is listed for a line. -/
def Entry.failure? (d : Entry) : Option Failure := d.fate.error?.map fun e => ⟨d.line, e⟩

/-- The statement that is sent for a line, and why it is refused, if it is. -/
def Entry.answer? (d : Entry) : Option (Request × Option Text) := d.fate.answer?

/-- Statements are withheld behind a failure in a transaction, and else they are sent. -/
def Orderly (transactional : Bool) : Bool → List Entry → Prop
  | _, [] => True
  | failed, d :: rest =>
    d.fate.fits (transactional && failed) = true ∧
      Orderly transactional (failed || d.failure?.isSome) rest

/-- **What a tale adds to a state**: statements of a kind are sent, and what becomes of the lines is
    counted and listed. -/
structure Account (server : Server) (kind : Call → Option Request) (s s' : State)
    (tale : List Entry) : Prop where
  session : s'.link.session = s.link.session
  transaction : s'.link.transaction = s.link.transaction
  calls : ∃ more, s'.link.calls = more ++ s.link.calls ∧ ∀ call ∈ more, (kind call).isSome = true
  answers : answers server kind s'.link.calls
    = answers server kind s.link.calls ++ tale.filterMap Entry.answer?
  expressions : s'.expressions = s.expressions + tale.countP fun d => d.fate.isWritten
  skipped : s'.skipped = s.skipped + tale.countP fun d => d.fate.isSkipped
  failures : s'.failures = s.failures ++ tale.filterMap Entry.failure?

namespace Account

variable {server : Server} {kind : Call → Option Request} {tale tale' : List Entry}

/-- Where nothing is sent, counted and listed, there is nothing to tell. -/
theorem of_eq (hlink : s'.link = s.link) (htally : s'.tally = s.tally) :
    Account server kind s s' [] where
  session := by rw [hlink]
  transaction := by rw [hlink]
  calls := ⟨[], by rw [hlink]; rfl, by simp⟩
  answers := by
    rw [hlink]
    exact (List.append_nil _).symm
  expressions := congrArg (fun t => t.1) htally
  skipped := congrArg (fun t => t.2.1) htally
  failures := (congrArg (fun t => t.2.2) htally).trans (List.append_nil _).symm

theorem trans (h : Account server kind s s' tale) (h' : Account server kind s' s'' tale') :
    Account server kind s s'' (tale ++ tale') where
  session := h'.session.trans h.session
  transaction := h'.transaction.trans h.transaction
  calls := by
    obtain ⟨more, hmore, hkind⟩ := h.calls
    obtain ⟨more', hmore', hkind'⟩ := h'.calls
    refine ⟨more' ++ more, by rw [hmore', hmore, List.append_assoc], fun call hc => ?_⟩
    exact (List.mem_append.mp hc).elim (hkind' call) (hkind call)
  answers := by rw [h'.answers, h.answers, List.filterMap_append, List.append_assoc]
  expressions := by rw [h'.expressions, h.expressions, List.countP_append, Nat.add_assoc]
  skipped := by rw [h'.skipped, h.skipped, List.countP_append, Nat.add_assoc]
  failures := by rw [h'.failures, h.failures, List.filterMap_append, List.append_assoc]

/-- What sends nothing, and counts and lists what one fate tells. -/
theorem of_silent {d : Entry} (hlink : s'.link = s.link) (hanswer : d.answer? = none)
    (hexpressions : s'.expressions = s.expressions + [d].countP fun d => d.fate.isWritten)
    (hskipped : s'.skipped = s.skipped + [d].countP fun d => d.fate.isSkipped)
    (hfailures : s'.failures = s.failures ++ [d].filterMap Entry.failure?) :
    Account server kind s s' [d] where
  session := by rw [hlink]
  transaction := by rw [hlink]
  calls := ⟨[], by rw [hlink]; rfl, by simp⟩
  answers := by
    rw [hlink, List.filterMap_cons_none hanswer]
    exact (List.append_nil _).symm
  expressions := hexpressions
  skipped := hskipped
  failures := hfailures

/-- What sends one statement, and counts and lists what one fate tells. -/
theorem of_call {call : Call} {r : Request} {d : Entry} (hkind : kind call = some r)
    (hlink : s'.link = ⟨s.link.session, s.link.transaction, call :: s.link.calls⟩)
    (hanswer : d.answer? = some (r, refusal? server s.link.calls call))
    (hexpressions : s'.expressions = s.expressions + [d].countP fun d => d.fate.isWritten)
    (hskipped : s'.skipped = s.skipped + [d].countP fun d => d.fate.isSkipped)
    (hfailures : s'.failures = s.failures ++ [d].filterMap Entry.failure?) :
    Account server kind s s' [d] where
  session := by rw [hlink]
  transaction := by rw [hlink]
  calls := ⟨[call], by rw [hlink]; rfl, by simp [hkind]⟩
  answers := by
    rw [hlink, answers_of_some hkind, List.filterMap_cons_some hanswer]
    rfl
  expressions := hexpressions
  skipped := hskipped
  failures := hfailures

/-- A failure is listed afterwards if one was before, or the tale has one. -/
theorem failed (h : Account server kind s s' tale) : (!s'.failures.isEmpty)
    = (!s.failures.isEmpty || tale.any fun d => d.failure?.isSome) := by
  rw [h.failures, Bool.eq_iff_iff]
  cases s.failures with
  | nil => simp [List.filterMap_eq_nil_iff, Option.isSome_iff_ne_none]
  | cons f failures => simp

end Account

theorem orderly_append {transactional : Bool} (tale tale' : List Entry) : ∀ {failed : Bool},
    Orderly transactional failed tale →
    Orderly transactional (failed || tale.any fun d => d.failure?.isSome) tale' →
    Orderly transactional failed (tale ++ tale') := by
  induction tale with
  | nil =>
    intro failed _ h
    rwa [List.any_nil, Bool.or_false] at h
  | cons d tale ih =>
    rintro failed ⟨hfits, horderly⟩ h
    refine ⟨hfits, ih horderly ?_⟩
    rwa [List.any_cons, ← Bool.or_assoc] at h

/-! ## 4. Handled expansions have a tale -/

variable {kind : Call → Option Request}

/-- **A statement that is sent is written or refused**, and its refusal is listed. -/
theorem post_account (hready : Ready kind s.link) (st : Statement) (line : Option Line) :
    ∃ fate : Fate, fate.result = .ok (some st) ∧ fate.fits false = true ∧
      ((post w p st s).listing line).1 = .ok () ∧
      Account w.server kind s ((post w p st s).listing line).2 [⟨line, fate⟩] := by
  obtain ⟨call, hcall, hkind⟩ := hready.call st
  obtain ⟨hlink, ⟨haccepted, hok, htally⟩ | ⟨message, hrefused, he, htally⟩⟩ :=
    post_cases (w := w) (p := p) hready.session hcall
  · rw [listing_of_ok hok]
    refine ⟨.written st, rfl, rfl, hok, .of_call hkind hlink ?_ ?_ ?_ ?_⟩
    · rw [haccepted]
      rfl
    · exact congrArg (fun t => t.1) htally
    · exact congrArg (fun t => t.2.1) htally
    · exact (congrArg (fun t => t.2.2) htally).trans (List.append_nil _).symm
  · rw [listing_of_reported he rfl]
    refine ⟨.refused st message, rfl, rfl, rfl, .of_call hkind hlink ?_ ?_ ?_ ?_⟩
    · rw [hrefused]
      rfl
    · exact congrArg (fun t => t.1) htally
    · exact congrArg (fun t => t.2.1) htally
    · exact congrArg (fun t => t.2.2 ++ [(⟨line, .write .statement message⟩ : Failure)]) htally

section Sending

variable (hsimulated : p.simulated = false)

include hsimulated

/-- A statement is sent unless the transaction has failed. -/
theorem send_eq (st : Statement) (s : State) : send w p st s
    = (let noted := s.noteIf (p.isAbove 1) .debug (statementNotice st)
       if p.transactional && !s.failures.isEmpty then .well noted else post w p st noted) := by
  unfold send
  simp only [hsimulated, failures_noteIf, Bool.false_eq_true, if_false]

/-- **An expansion that is handled has a fate that accounts for it.** -/
theorem handle_account (hready : Ready kind s.link) (x : Expanded) :
    ∃ fate : Fate, fate.result = x.instruction.bind (compile w p) ∧
      fate.fits (p.transactional && !s.failures.isEmpty) = true ∧ (handle w p x s).1 = .ok () ∧
      Account w.server kind s (handle w p x s).2 [⟨x.line, fate⟩] := by
  have htally := tally_shown s p x
  have hexpressions : (s.shown p x).expressions = s.expressions := congrArg (fun t => t.1) htally
  have hskipped : (s.shown p x).skipped = s.skipped := congrArg (fun t => t.2.1) htally
  have hfailures : (s.shown p x).failures = s.failures := congrArg (fun t => t.2.2) htally
  cases hx : x.instruction.bind (compile w p) with
  | error e =>
    rw [handle_of_error hx]
    refine ⟨.failed e, rfl, rfl, rfl, .of_silent (link_shown s p x) rfl hexpressions hskipped ?_⟩
    exact congrArg (· ++ [(⟨x.line, e⟩ : Failure)]) hfailures
  | ok statement? =>
    cases statement? with
    | none =>
      obtain ⟨notice, hhandle⟩ := handle_of_none (w := w) hx s
      rw [hhandle]
      refine ⟨.skipped, rfl, rfl, rfl, .of_silent (link_shown s p x) rfl hexpressions ?_ ?_⟩
      · exact congrArg (· + 1) hskipped
      · exact hfailures.trans (List.append_nil _).symm
    | some st =>
      rw [handle_of_some hx, send_eq hsimulated, hfailures]
      let noted := (s.shown p x).noteIf (p.isAbove 1) .debug (statementNotice st)
      have hlink : noted.link = s.link := (link_noteIf ..).trans (link_shown s p x)
      have hkept : noted.tally = (s.shown p x).tally := tally_of_ledger (ledger_noteIf ..)
      have hsame : Account w.server kind s noted [] := .of_eq hlink (hkept.trans htally)
      cases hheld : p.transactional && !s.failures.isEmpty with
      | true => exact ⟨.withheld st, rfl, rfl, rfl, hsame.trans (.of_silent rfl rfl rfl rfl
          (List.append_nil _).symm)⟩
      | false =>
        obtain ⟨fate, hresult, hfits, hok, hposted⟩ :=
          post_account (w := w) (p := p) (s := noted) (hlink ▸ hready) st x.line
        exact ⟨fate, hresult, hfits, hok, hsame.trans hposted⟩

/-- **Expansions that are handled in order have a tale that accounts for them.** -/
theorem handleAll_account (xs : List Expanded) : ∀ {s : State}, Ready kind s.link →
    ∃ tale : List Entry, tale.map (fun d => (d.line, d.fate.result))
        = xs.map (fun x => (x.line, x.instruction.bind (compile w p))) ∧
      Orderly p.transactional (!s.failures.isEmpty) tale ∧ (handleAll w p xs s).1 = .ok () ∧
      Account w.server kind s (handleAll w p xs s).2 tale := by
  induction xs with
  | nil => exact fun _ => ⟨[], rfl, trivial, rfl, .of_eq rfl rfl⟩
  | cons x xs ih =>
    intro s hready
    obtain ⟨fate, hresult, hfits, hok, hone⟩ := handle_account hsimulated hready x
    obtain ⟨tale, hresults, horderly, hrest, htale⟩ :=
      ih (hready.of_eq hone.session hone.transaction)
    rw [hone.failed] at horderly
    refine ⟨[⟨x.line, fate⟩] ++ tale, ?_, orderly_append _ tale ⟨hfits, trivial⟩ horderly, ?_, ?_⟩
    · rw [List.singleton_append, List.map_cons, List.map_cons, hresults, hresult]
    · rw [handleAll, Ending.andThen_of_ok hok]
      exact hrest
    · rw [handleAll, Ending.andThen_of_ok hok]
      exact hone.trans htale

end Sending

/-! ## 5. Batches of lines have a tale -/

/-- **The tale is about the lines.** In the order of the lines it has an entry for each of them, and
    those that have sent a statement are in that order to begin with; so are all if every failure to
    expand a line is one that is reported. -/
structure Tells (w : Surroundings) (p : Plan) (template : Text) (lines : List Line)
    (tale ordered : List Entry) : Prop where
  entries : ordered.map (fun d => (d.line, d.fate.result))
    = lines.map fun line => (some line, lineResult w p template line)
  perm : tale.Perm ordered
  answers : tale.filterMap Entry.answer? = ordered.filterMap Entry.answer?
  reported : Reports w p template lines → tale = ordered

/-- The faults of lines, which are listed at the end of their batch. -/
def faults (w : Surroundings) (p : Plan) (template : Text) (lines : List Line) : List Entry :=
  (lines.filterMap (Batch.failure? (expandOne w p template))).map fun d => ⟨some d.1, .failed d.2⟩

variable {template : Text} {lines lines' : List Line} {tale tale' ordered ordered' : List Entry}

namespace Tells

theorem nil : Tells w p template [] [] [] := ⟨rfl, .nil, rfl, fun _ => rfl⟩

theorem append (h : Tells w p template lines tale ordered)
    (h' : Tells w p template lines' tale' ordered') :
    Tells w p template (lines ++ lines') (tale ++ tale') (ordered ++ ordered') where
  entries := by rw [List.map_append, List.map_append, h.entries, h'.entries]
  perm := h.perm.append h'.perm
  answers := by rw [List.filterMap_append, List.filterMap_append, h.answers, h'.answers]
  reported hreports := by
    rw [h.reported fun line hline => hreports line (List.mem_append_left _ hline),
      h'.reported fun line hline => hreports line (List.mem_append_right _ hline)]

/-- A line that expands comes first, where its entry does. -/
theorem cons_expanded {line : Line} {x : Expanded} {d : Entry}
    (hx : expandOne w p template line = .ok x)
    (hd : (d.line, d.fate.result) = (x.line, x.instruction.bind (compile w p)))
    (h : Tells w p template lines tale ordered) :
    Tells w p template (line :: lines) (d :: tale) (d :: ordered) := by
  have hline : x.line = some line := by
    unfold expandOne at hx
    split at hx
    · cases hx
      rfl
    · split at hx
      · cases hx
        rfl
      · cases hx
  have hresult : lineResult w p template line = x.instruction.bind (compile w p) := by
    rw [lineResult_eq, hx]
    rfl
  have hone : Tells w p template [line] [d] [d] := by
    refine ⟨?_, .refl _, rfl, fun _ => rfl⟩
    rw [List.map_singleton, List.map_singleton, hd, hline, hresult]
  exact hone.append h

/-- A fault is listed behind the entries of the other lines. -/
theorem cons_fault {line : Line} {e : Error} (hx : expandOne w p template line = .error e)
    (h : Tells w p template lines (tale ++ tale') ordered) :
    Tells w p template (line :: lines) (tale ++ ⟨some line, .failed e⟩ :: tale')
      (⟨some line, .failed e⟩ :: ordered) where
  entries := by
    rw [List.map_cons, List.map_cons, h.entries, lineResult_eq, hx]
    rfl
  perm := List.perm_middle.trans (h.perm.cons _)
  answers := by
    have hnone : Entry.answer? ⟨some line, .failed e⟩ = none := rfl
    rw [List.filterMap_append, List.filterMap_cons_none hnone, List.filterMap_cons_none hnone,
      ← List.filterMap_append, h.answers]
  reported hreports := by
    have hnone := hreports.noFaults
    rw [List.filterMap_cons_some (Batch.failure?_of_error hx)] at hnone
    cases hnone

/-- **What lines expand to, and their faults behind it, are about the lines.** -/
theorem of_expansions : ∀ {lines : List Line} {tale : List Entry},
    tale.map (fun d => (d.line, d.fate.result))
      = (expansions w p template lines).map (fun x => (x.line, x.instruction.bind (compile w p))) →
    ∃ ordered, Tells w p template lines (tale ++ faults w p template lines) ordered
  | [], tale, h => by
    rw [List.map_eq_nil_iff.mp h]
    exact ⟨[], nil⟩
  | line :: lines, tale, h => by
    unfold expansions faults at *
    cases hx : expandOne w p template line with
    | ok x =>
      rw [List.filterMap_cons_some (by rw [hx]; rfl), List.map_cons] at h
      obtain ⟨d, tale, rfl, hd, hrest⟩ := List.map_eq_cons_iff.mp h
      obtain ⟨ordered, hordered⟩ := of_expansions hrest
      rw [List.filterMap_cons_none (Batch.failure?_of_ok hx)]
      exact ⟨d :: ordered, cons_expanded hx hd hordered⟩
    | error e =>
      rw [List.filterMap_cons_none (by rw [hx]; rfl)] at h
      obtain ⟨ordered, hordered⟩ := of_expansions h
      rw [List.filterMap_cons_some (Batch.failure?_of_error hx), List.map_cons]
      exact ⟨_, cons_fault hx hordered⟩

end Tells

/-- Listed failures have a tale. -/
theorem failAll_account (server : Server) (kind : Call → Option Request)
    (errors : List (Line × Error)) (s : State) :
    Account server kind s (s.failAll errors) (errors.map fun d => ⟨some d.1, .failed d.2⟩) := by
  induction errors generalizing s with
  | nil => exact .of_eq rfl rfl
  | cons d errors ih =>
    have hone : Account server kind s (s.fail (some d.1) d.2) [⟨some d.1, .failed d.2⟩] :=
      .of_silent rfl rfl rfl rfl rfl
    exact hone.trans (ih (s.fail (some d.1) d.2))

theorem orderly_failed (transactional : Bool) (errors : List (Line × Error)) : ∀ failed : Bool,
    Orderly transactional failed (errors.map fun d => ⟨some d.1, .failed d.2⟩) := by
  induction errors with
  | nil => exact fun _ => trivial
  | cons d errors ih => exact fun failed => ⟨rfl, ih _⟩

section Working

variable (hsimulated : p.simulated = false)

include hsimulated

/-- **A batch of lines that is worked off has a tale that accounts for it.** -/
theorem workOff_account {n : Int} (hn : p.batches.size.index = .ok n) (hpos : 0 < n)
    (hworkers : p.batches.hasWorkers = true) (hready : Ready kind s.link) (template : Text)
    (number : Nat) (batch : List Line) :
    ∃ tale ordered, Tells w p template batch tale ordered ∧
      Orderly p.transactional (!s.failures.isEmpty) tale ∧
      (workOff w p template number batch s).1 = .ok () ∧
      Account w.server kind s (workOff w p template number batch s).2 tale := by
  obtain ⟨report, hreport⟩ := Batch.process_of_hasWorkers (expandOne w p template) hn hpos
    hworkers (fun _ => w.orders number) batch
  obtain ⟨hresults, herrors⟩ := Batch.report_process hn (Int.le_of_lt hpos) hreport
  unfold workOff
  simp only [hreport]
  generalize hs' : ({ s.recordAll _ with commands := _ } : State) = s'
  have hsame : Account w.server kind s s' [] := by
    rw [← hs']
    exact .of_eq (link_recordAll ..) (tally_of_ledger (ledger_recordAll ..))
  obtain ⟨tale, htale, horderly, hok, haccount⟩ := handleAll_account hsimulated report.results
    (hready.of_eq hsame.session hsame.transaction)
  have hfailed := failAll_account w.server kind report.errors (handleAll w p report.results s').2
  rw [hresults] at htale
  obtain ⟨ordered, htells⟩ := Tells.of_expansions htale
  rw [faults, ← herrors] at htells
  refine ⟨_, ordered, htells, ?_, ?_, ?_⟩
  · rw [hsame.failed, List.any_nil, Bool.or_false] at horderly
    exact orderly_append _ _ horderly (orderly_failed ..)
  · rw [Ending.andThen_of_ok hok]
    rfl
  · rw [Ending.andThen_of_ok hok]
    exact hsame.trans (haccount.trans hfailed)

/-- **So have batches, one after the other.** -/
theorem workOffAll_account {n : Int} (hn : p.batches.size.index = .ok n) (hpos : 0 < n)
    (hworkers : p.batches.hasWorkers = true) (template : Text) (parts : List (List Line)) :
    ∀ {s : State}, Ready kind s.link → ∀ number : Nat,
      ∃ tale ordered, Tells w p template parts.flatten tale ordered ∧
        Orderly p.transactional (!s.failures.isEmpty) tale ∧
        (workOffAll w p template number parts s).1 = .ok () ∧
        Account w.server kind s (workOffAll w p template number parts s).2 tale := by
  induction parts with
  | nil => exact fun _ _ => ⟨[], [], .nil, trivial, rfl, .of_eq rfl rfl⟩
  | cons batch parts ih =>
    intro s hready number
    obtain ⟨tale, ordered, htells, horderly, hok, hone⟩ :=
      workOff_account (w := w) hsimulated hn hpos hworkers hready template number batch
    obtain ⟨tale', ordered', htells', horderly', hok', hrest⟩ :=
      ih (hready.of_eq hone.session hone.transaction) (number + 1)
    rw [hone.failed] at horderly'
    rw [workOffAll, Ending.andThen_of_ok hok]
    exact ⟨tale ++ tale', ordered ++ ordered', htells.append htells',
      orderly_append tale tale' horderly horderly', hok', hone.trans hrest⟩

/-- **The lines that a run reads have a tale that accounts for what it feeds.** Feeding may end in a
    failure if it reads none of them. -/
theorem feed_account (hready : Ready kind s.link) (htemplate : template ≠ []) (lines : List Text) :
    ∃ tale ordered, Tells w p template (readLines p lines) tale ordered ∧
      Orderly p.transactional (!s.failures.isEmpty) tale ∧
      ((feed w p template (some lines) s).1 = .ok () ∨
        (makesBatches p = false ∧ (feed w p template (some lines) s).2.failures = s.failures)) ∧
      Account w.server kind s (feed w p template (some lines) s).2 tale := by
  have hempty : template.isEmpty = false := List.isEmpty_eq_false_iff.mpr htemplate
  unfold feed
  simp only [hempty, Bool.false_eq_true, if_false]
  generalize hs' : s.noteIf (p.isAbove 0) .debug _ = s'
  have hsame : Account w.server kind s s' [] := by
    rw [← hs']
    exact .of_eq (link_noteIf ..) (tally_of_ledger (ledger_noteIf ..))
  cases hbatches : makesBatches p with
  | true =>
    obtain ⟨n, parts, hn, hpos, hworkers, hflatten, hwork⟩ :=
      processLines_of_makesBatches hbatches w template lines s'
    obtain ⟨tale, ordered, htells, horderly, hok, hall⟩ := workOffAll_account (w := w) hsimulated
      hn hpos hworkers template parts (hready.of_eq hsame.session hsame.transaction) 0
    rw [hflatten] at htells
    rw [hsame.failed, List.any_nil, Bool.or_false] at horderly
    rw [readLines, if_pos hbatches, hwork]
    exact ⟨tale, ordered, htells, horderly, .inl hok, hsame.trans hall⟩
  | false =>
    obtain ⟨hlink, hledger, _⟩ := processLines_of_noBatches (w := w) hbatches template lines s'
    have hnone : Account w.server kind s' (processLines w p template lines s').2 [] :=
      .of_eq hlink (tally_of_ledger hledger)
    have hboth := hsame.trans hnone
    rw [readLines, if_neg (by rw [hbatches]; decide)]
    exact ⟨[], [], .nil, trivial, .inr ⟨rfl, hboth.failures.trans (List.append_nil _)⟩, hboth⟩

end Working

end GraphFeed.Run
