import GraphFeed.Proofs.Provenance

/-!
# The phases in any order

The two phases of an expansion can be called on one buffer again and again, with other records and
other runners, and a phase that has failed can be called once more. In most orders, data stays marked
as data: a trusted cell stands in the template where its place says, and commands are run for braces
of the template alone (`data_stays_data`).

The exception are commands that are run inside a fallback before it is put back: the fallback then
holds what a command has answered, and takes all of its cells for cells of the template
(`fallback_trusts_output`). So the phase of fields must not follow on a phase of commands that found
a command of the template inside a field placeholder which was still open (`InOrder`). It may always
follow once it has been successful itself (`inOrder_of_resolved`), and on any phase if the template
has no command inside a field placeholder (`inOrder_of_commandsOutside`).

What is said of the inside of the field placeholders that are open carries the proof (`OpenFields`):

* `closing_of_fallback`, `Untouched.resolve`: a fallback is a part of the template, and a placeholder
  that opens in it is closed in it, so that a step over fields takes nothing but template over;
* `closed_before_command`, `OpenFields.replace`: a placeholder with no live command inside is closed
  in front of the next command, so that a step over commands changes nothing inside it.
-/

namespace GraphFeed

open Buffer (Cell)

/-! ## 1. Calls of the phases -/

/-- A call of a phase on a buffer. -/
inductive PhaseCall
  | fields (record : Record)
  | commands (runner : Runner)

namespace PhaseCall

/-- The call is one of the phase of fields. -/
def isFields : PhaseCall → Bool
  | fields _ => true
  | commands _ => false

/-- What a call does on a buffer. -/
def apply (s : Splitter) : PhaseCall → Buffer → Progress Buffer
  | fields record, b => resolveFields s record b
  | commands runner, b => resolveCommands runner b

end PhaseCall

/-- What calls do on a buffer one after the other. A call that fails leaves the buffer to the next
    one as it is then. -/
def performed (s : Splitter) : List PhaseCall → Buffer → List (Progress Buffer)
  | [], _ => []
  | call :: later, b => call.apply s b :: performed s later (call.apply s b).state

/-- Happenings show honest buffers only, and commands are run for braces of the template. -/
def Happening.Honest (t : Text) : Happening → Prop
  | .edited b | .surveyed b => ∀ c ∈ b.cells, GraphFeed.Honest t c
  | .running brace _ _ => ∃ place, brace = .at place '{' ∧ t[place]? = some ('{' : CodePoint)
  | _ => True

/-! ## 2. Inside open field placeholders -/

/-- What stands inside a placeholder behind the brace of which `rest` stands: the cells up to the
    brace that closes it, or all of them if none does. -/
def interiorOf (rest : List Cell) : List Cell :=
  match Brace.scan Cell.token 0 false rest with
  | .closed interior _ => interior
  | _ => rest

/-- Of every live field brace of the template and what stands inside its placeholder, `Q` holds. -/
def OpenFields (Q : Cell → List Cell → Prop) (before : Option Cell) : List Cell → Prop
  | [] => True
  | c :: rest =>
    (Phase.fields.live before c rest.head? = true → c.mark = some .trusted → Q c (interiorOf rest)) ∧
      OpenFields Q (some c) rest

/-- What stands inside is of the template. -/
def TemplateOnly (_ : Cell) (items : List Cell) : Prop := ∀ d ∈ items, d.mark = some .trusted

/-- Of what stands inside, no command brace of the template is live. -/
def NoCommand (c : Cell) (items : List Cell) : Prop :=
  Phase.commands.hasLive Phase.ofTemplate (some c) items = false

/-- No command of the template stands inside a field placeholder of it that is still open. -/
def Buffer.CommandsOutside (b : Buffer) : Prop := OpenFields NoCommand none b.cells

/-- Where a phase of fields comes after a phase of commands, no command was run inside a field
    placeholder of the template. -/
def InOrder (s : Splitter) : List PhaseCall → Buffer → Prop
  | [], _ => True
  | .fields record :: later, b => InOrder s later (resolveFields s record b).state
  | .commands runner :: later, b =>
    (b.CommandsOutside ∨ ∀ call ∈ later, call.isFields = false) ∧
      InOrder s later (resolveCommands runner b).state

variable {Q S : Cell → List Cell → Prop} {before before' : Option Cell} {c e close : Cell}
  {cells front rest items : List Cell}

theorem openFields_cons : OpenFields Q before (c :: rest) ↔
    (Phase.fields.live before c rest.head? = true → c.mark = some .trusted → Q c (interiorOf rest)) ∧
      OpenFields Q (some c) rest := Iff.rfl

theorem OpenFields.imp (h : ∀ c items, Q c items → S c items) :
    ∀ {cells : List Cell} {before : Option Cell}, OpenFields Q before cells → OpenFields S before cells
  | [], _, _ => trivial
  | _ :: _, _, hc => ⟨fun hl hm => h _ _ (hc.1 hl hm), OpenFields.imp h hc.2⟩

theorem OpenFields.and : ∀ {cells : List Cell} {before : Option Cell}, OpenFields Q before cells →
    OpenFields S before cells → OpenFields (fun c items => Q c items ∧ S c items) before cells
  | [], _, _, _ => trivial
  | _ :: _, _, hq, hs => ⟨fun hl hm => ⟨hq.1 hl hm, hs.1 hl hm⟩, hq.2.and hs.2⟩

theorem Phase.isLive_of_live {phase : Phase} {before next : Option Cell}
    (h : phase.live before c next = true) : phase.isLive before c next = .ok true := by
  unfold Phase.live at h
  split at h
  · rename_i b hb
    rw [hb, h]
  · cases h

/-- Cells may stand behind another cell that escapes no brace which was not escaped before. -/
theorem OpenFields.of_before (h : OpenFields Q before cells) (hu : unescapedAfter before = .ok true) :
    OpenFields Q before' cells := by
  cases cells with
  | nil => trivial
  | cons c rest =>
    refine ⟨fun hl hm => h.1 ?_ hm, h.2⟩
    obtain ⟨hc, _, d, hd, ho⟩ := Phase.isLive_eq_true (Phase.isLive_of_live hl)
    simp [Phase.live, Phase.isLive, hc, hd, ho, hu]

/-- Of the last part of cells the same is said. -/
theorem OpenFields.back : ∀ {front : List Cell} {before : Option Cell},
    OpenFields Q before (front ++ rest) → OpenFields Q (front.getLast?.or before) rest
  | [], _, h => h
  | c :: front, before, h => by
    have hback := OpenFields.back h.2
    rw [List.getLast?_cons]
    cases hl : front.getLast? with
    | none => rwa [hl] at hback
    | some d => rwa [hl] at hback

/-- Cells may stand in front, if as much is said of the field braces among them. -/
theorem openFields_append : ∀ {front : List Cell} {before : Option Cell},
    (∀ first c last, front = first ++ c :: last →
      Phase.fields.live (first.getLast?.or before) c (last ++ rest).head? = true →
        c.mark = some .trusted → Q c (interiorOf (last ++ rest))) →
      OpenFields Q (front.getLast?.or before) rest → OpenFields Q before (front ++ rest)
  | [], _, _, h => h
  | c :: front, before, hfront, h => by
    rw [List.cons_append, openFields_cons]
    refine ⟨hfront [] c front rfl, openFields_append (fun first d last hsplit => ?_) ?_⟩
    · have hd := hfront (c :: first) d last (by rw [hsplit, List.cons_append])
      rw [List.getLast?_cons] at hd
      cases hl : first.getLast? with
      | none => rwa [hl] at hd
      | some b => rwa [hl] at hd
    · rw [List.getLast?_cons] at h
      cases hl : front.getLast? with
      | none => rwa [hl] at h
      | some d => rwa [hl] at h

/-- Cells among which no field brace of the template is live may stand in front of any others. -/
theorem openFields_reverse_append {done : List Cell}
    (hcalm : Along (Phase.fields.Calm Phase.ofTemplate) none done.reverse rest.head?)
    (h : OpenFields Q done.head? rest) : OpenFields Q none (done.reverse ++ rest) := by
  refine openFields_append (fun first c last hsplit hl hm => ?_) ?_
  · rw [hsplit] at hcalm
    have hc := (along_append.mp hcalm).2.1
    rw [← List.head?_append, Phase.Calm, hl, Phase.ofTemplate, hm] at hc
    exact absurd hc (by decide)
  · rwa [List.getLast?_reverse, Option.or_none]

/-- Data has no field braces of the template. -/
theorem openFields_data {mark : Mark} (hmark : mark ≠ .trusted) (value : Text)
    (h : OpenFields Q ((Cell.ofText mark value).getLast?.or before) rest) :
    OpenFields Q before (Cell.ofText mark value ++ rest) := by
  refine openFields_append (fun first c last hsplit _ hm => ?_) h
  have hc : c ∈ Cell.ofText mark value := by
    rw [hsplit]
    simp
  obtain ⟨x, _, rfl⟩ := List.mem_map.mp hc
  exact absurd (Option.some.inj hm) hmark

/-- There is nothing to say exactly if no field brace of the template is live. -/
theorem openFields_false_iff : ∀ {cells : List Cell} {before : Option Cell},
    OpenFields (fun _ _ => False) before cells ↔
      Phase.fields.hasLive Phase.ofTemplate before cells = false
  | [], _ => by simp [OpenFields, Phase.hasLive]
  | c :: rest, before => by
    rw [OpenFields, openFields_false_iff, Phase.hasLive, Bool.or_eq_false_iff, Bool.and_eq_false_imp]
    simp [Phase.ofTemplate]

theorem interiorOf_closed (hclose : close.token = .closing)
    (hlevel : Brace.Level.overAll Cell.token ⟨0, false⟩ items = some ⟨0, false⟩) (rest : List Cell) :
    interiorOf (items ++ close :: rest) = items := by
  have hscan : Brace.scan Cell.token 0 false (items ++ close :: rest) = .closed items rest :=
    Brace.scan_append_closed hclose hlevel
  rw [interiorOf, hscan]

theorem mem_interiorOf {d : Cell} (hd : d ∈ interiorOf rest) : d ∈ rest := by
  unfold interiorOf at hd
  split at hd
  · rename_i interior after hscan
    obtain ⟨_, _, hsplit⟩ := Brace.scan_closed _ _ _ _ _ _ hscan
    rw [hsplit]
    exact List.mem_append_left _ hd
  · exact hd

theorem openFields_template : ∀ {cells : List Cell} {before : Option Cell},
    (∀ d ∈ cells, d.mark = some .trusted) → OpenFields TemplateOnly before cells
  | [], _, _ => trivial
  | _ :: _, _, h =>
    ⟨fun _ _ d hd => h d (List.mem_cons_of_mem _ (mem_interiorOf hd)),
      openFields_template fun d hd => h d (List.mem_cons_of_mem _ hd)⟩

/-- What holds inside a placeholder holds inside those that are opened and closed there. -/
def Hereditary (Q : Cell → List Cell → Prop) : Prop :=
  ∀ c front e items close back, close.token = .closing →
    Q c (front ++ e :: (items ++ close :: back)) → Q e items

theorem hereditary_templateOnly : Hereditary TemplateOnly := by
  intro c front e items close back _ h d hd
  exact h d (by simp [hd])

theorem hereditary_noCommand : Hereditary NoCommand := by
  intro c front e items close back hclose h
  have halong := (along_append.mp (Phase.hasLive_eq_false_iff.mp h)).2.2
  have hitems := (along_append.mp halong).1
  refine Phase.hasLive_eq_false_iff.mpr (hitems.of_next fun b x _ => ?_)
  -- the last cell inside is followed by the closing brace, and by itself by nothing
  have hnone : Phase.commands.live b x none = false := by
    by_cases hx : x.char = ('{' : CodePoint)
    · simp [Phase.live, Phase.isLive, hx]
    · exact Phase.live_eq_false_of_ne hx
  rw [Phase.Calm, hnone, Bool.false_and]

theorem Hereditary.and (hq : Hereditary Q) (hs : Hereditary S) :
    Hereditary fun c items => Q c items ∧ S c items :=
  fun c front e items close back hclose h =>
    ⟨hq c front e items close back hclose h.1, hs c front e items close back hclose h.2⟩

/-! ## 3. Sweeps over fields -/

/-- What is said of each cell: it is honest, and it has a mark. -/
def Fair (t : Text) (c : Cell) : Prop := Honest t c ∧ c.mark.isSome

theorem fair_guard (t : Text) : Fair t guardCell := ⟨fun hm => (by cases hm), rfl⟩

theorem fair_data (t : Text) : HoldsOfData (Fair t) := fun _ => ⟨fun hm => (by cases hm), rfl⟩

/-- Between two steps of a sweep over fields, no live brace of the template has been passed, and
    what is said of the placeholders holds of those that are left. -/
structure Untouched (t : Text) (Q : Cell → List Cell → Prop) (done rest : List Cell) : Prop where
  passed : ∀ d ∈ done, Fair t d
  left : ∀ d ∈ rest, Fair t d
  calm : Along (Phase.fields.Calm Phase.ofTemplate) none done.reverse rest.head?
  opened : OpenFields Q done.head? rest

variable {t : Text} {s : Splitter} {record : Record} {runner : Runner} {filled : Nat}
  {done : List Cell} {spare : List Mark}

theorem Untouched.fair (h : Untouched t Q done rest) : ∀ d ∈ done.reverse ++ rest, Fair t d := by
  intro d hd
  rcases List.mem_append.mp hd with hd | hd
  · exact h.passed d (List.mem_reverse.mp hd)
  · exact h.left d hd

theorem Untouched.opened_all (h : Untouched t Q done rest) :
    OpenFields Q none (done.reverse ++ rest) := openFields_reverse_append h.calm h.opened

/-- A cell that is no live brace is passed. -/
theorem Untouched.pass (h : Untouched t Q done (c :: rest))
    (hl : Phase.fields.isLive done.head? c rest.head? = .ok false) :
    Untouched t Q (c :: done) rest where
  passed := List.forall_mem_cons.mpr ⟨h.left c List.mem_cons_self, h.passed⟩
  left d hd := h.left d (List.mem_cons_of_mem c hd)
  calm := by
    refine along_reverse_cons.mpr ⟨h.calm, ?_⟩
    rw [Phase.Calm, Phase.live, hl, Bool.false_and]
  opened := h.opened.2

/-- A closing brace escapes nothing. -/
theorem unescapedAfter_closing (h : close.token = .closing) : unescapedAfter (some close) = .ok true := by
  refine Phase.unescapedAfter_of_ne ?_
  rintro b ⟨⟩
  rw [Cell.char_of_token_closing h]
  decide

/-- **A live brace of a fallback is closed in the fallback.** -/
theorem closing_of_fallback {p : Placeholder} {interior first last : List Cell}
    (hp : Placeholder.ofInterior (Cell.text interior) = .ok p)
    (hmarks : ∀ d ∈ interior, d.mark = some .trusted)
    (hlevel : Brace.Level.overAll Cell.token ⟨0, false⟩ interior = some ⟨0, false⟩)
    (hsplit : p.fallbackCells interior = first ++ e :: last) (he : e.char = ('{' : CodePoint))
    (hu : unescapedAfter (first.getLast?.or before) = .ok true) :
    ∃ lead items close back trail, interior = lead ++ e :: (items ++ close :: (back ++ trail)) ∧
      last = items ++ close :: back ∧ close.token = .closing ∧
      Brace.Level.overAll Cell.token ⟨0, false⟩ items = some ⟨0, false⟩ := by
  rcases Placeholder.fallback_split hp hmarks with hnone | ⟨lead, mark, trail, hi, hmark, htrail⟩
  · rw [Placeholder.fallbackCells, hnone] at hsplit
    exact absurd hsplit.symm (by simp)
  have hinterior : interior = (lead ++ mark :: first) ++ e :: (last ++ trail) := by
    rw [hi, hsplit]
    simp
  rw [hinterior, Brace.overAll_append, Option.bind_eq_some_iff] at hlevel
  obtain ⟨l, hl, hrest⟩ := hlevel
  have hescaped : l.escaped = false := by
    refine Bool.eq_false_iff.mpr fun hescaped => ?_
    obtain ⟨front, y, hfront, hy⟩ := Brace.escaped_behind hl hescaped
    obtain ⟨hslash, _, _⟩ := Cell.of_token_escape hy
    rcases List.eq_nil_or_concat first with rfl | ⟨first', z, rfl⟩
    · have hy : mark = y := List.singleton_inj.mp (List.append_inj' hfront rfl).2
      rw [← hy, hmark] at hslash
      exact absurd hslash (by decide)
    · rw [List.concat_eq_append] at *
      rw [← List.cons_append, ← List.append_assoc] at hfront
      have hz : z = y := List.singleton_inj.mp (List.append_inj' hfront rfl).2
      have hztrusted : z.mark = some .trusted := hmarks z (by rw [hinterior]; simp)
      rw [List.getLast?_concat, Option.some_or] at hu
      rw [hz] at hztrusted
      simp [unescapedAfter, hz, hslash, hztrusted] at hu
  rw [Brace.overAll_cons, Option.bind_eq_some_iff, Cell.token_opening he] at hrest
  obtain ⟨m, hm, hrest⟩ := hrest
  rw [Brace.Level.over, hescaped] at hm
  cases hm
  rw [Brace.overAll_append, Option.bind_eq_some_iff] at hrest
  obtain ⟨l', hlast, hblank⟩ := hrest
  have hbottom : l'.depth ≤ 0 := by
    refine Brace.depth_le_of_noClosing (fun y hy hclosing => ?_) hblank
    have hyblank := htrail y hy
    rw [Cell.char_of_token_closing hclosing] at hyblank
    exact absurd hyblank (by decide)
  obtain ⟨items, close, back, hitems, hclose, hinside⟩ :=
    Brace.exists_closing (d := l.depth) (k := 0) hlast (Nat.le_trans hbottom (Nat.zero_le _))
  refine ⟨lead ++ mark :: first, items, close, back, trail, ?_, hitems, hclose, hinside⟩
  rw [hinterior, hitems]
  simp

/-- **A step over fields meets no data in an interior**, and so takes over template alone. -/
theorem Untouched.resolve {trace : List Happening} {f : Front} (hQ : Hereditary Q)
    (hT : ∀ c items, Q c items → TemplateOnly c items) (h : Untouched t Q done (c :: rest))
    (hl : Phase.fields.isLive done.head? c rest.head? = .ok true)
    (hr : resolveBrace .fields (fieldFiller s record) filled done c rest = (trace, .ok f)) :
    Untouched t Q f.done f.rest := by
  obtain ⟨hc, hu, _⟩ := Phase.isLive_eq_true hl
  have hcfair : Fair t c := h.left c List.mem_cons_self
  have hrest : ∀ d ∈ rest, Fair t d := fun d hd => h.left d (List.mem_cons_of_mem c hd)
  have hcalm := Phase.calm_of_opens h.calm (by rw [hc]; decide)
  obtain ⟨m, _, _, _, rfl⟩ | ⟨hmark, interior, after, filling, hscan, hfill, rfl⟩ :=
    resolveBrace_cases hr
  · refine ⟨?_, hrest, Phase.calm_guard hc h.calm, h.opened.2⟩
    exact List.forall_mem_cons.mpr ⟨hcfair, List.forall_mem_cons.mpr ⟨fair_guard t, h.passed⟩⟩
  obtain ⟨close, rfl, hclose, hlevel⟩ := Brace.overAll_of_scan_closed (l := ⟨0, false⟩) hscan
  have hinside : Q c interior := by
    have hinside := h.opened.1 (by rw [Phase.live, hl]) hmark
    rwa [interiorOf_closed hclose hlevel] at hinside
  have hafter : OpenFields Q (some close) after := by
    have hback := h.opened.2.back
    exact hback.2
  have hescape := unescapedAfter_closing hclose
  have hfair : ∀ d ∈ after, Fair t d := fun d hd => hrest d (by simp [hd])
  cases filling with
  | data value =>
    refine ⟨fun d hd => ?_, hfair, ?_, hafter.of_before hescape⟩
    · rcases List.mem_append.mp hd with hd | hd
      · exact (fair_data t).ofText value d (List.mem_reverse.mp hd)
      · exact h.passed d hd
    · refine Phase.calm_data hcalm (Cell.ofText .resolved value) (fun d hd => ?_) _
      obtain ⟨x, _, rfl⟩ := List.mem_map.mp hd
      rfl
  | template cells =>
    obtain ⟨p, hp, _, rfl⟩ := fieldFiller_template hfill
    have hmarks : ∀ d ∈ interior, d.mark = some .trusted := hT c interior hinside
    refine ⟨h.passed, fun d hd => ?_, hcalm _, ?_⟩
    · rcases List.mem_append.mp hd with hd | hd
      · -- the interior is template, so its fallback is a part of it with nothing changed
        rcases Placeholder.fallback_split hp hmarks with hnone | ⟨lead, mark, trail, hi, _⟩
        · rw [Placeholder.fallbackCells, hnone] at hd
          exact absurd hd List.not_mem_nil
        · refine hrest d (List.mem_append_left _ ?_)
          rw [hi]
          simp [hd]
      · exact hfair d hd
    · refine openFields_append (fun first e last hsplit hlive _ => ?_) (hafter.of_before hescape)
      obtain ⟨he, hue, _⟩ := Phase.isLive_eq_true (Phase.isLive_of_live hlive)
      obtain ⟨lead, items, close', back, trail, hi, hlast, hclose', hlevel'⟩ :=
        closing_of_fallback hp hmarks hlevel hsplit he hue
      rw [hlast, List.append_assoc, List.cons_append, interiorOf_closed hclose' hlevel']
      exact hQ c lead e items close' (back ++ trail) hclose' (hi ▸ hinside)

/-- The buffer in the middle of a sweep shows the cells of the sweep. -/
theorem honest_ofCells (h : ∀ d ∈ cells, Fair t d) (spare : List Mark) :
    ∀ d ∈ (Buffer.ofCells cells spare).cells, Honest t d := by
  rw [Buffer.cells_ofCells fun d hd => (h d hd).2]
  exact fun d hd => (h d hd).1

/-- What a step over fields reports shows no buffer and runs no command. -/
theorem honest_resolveField (t : Text) (s : Splitter) (record : Record) (filled : Nat)
    (done : List Cell) (c : Cell) (rest : List Cell) :
    ∀ happening ∈ (resolveBrace .fields (fieldFiller s record) filled done c rest).1,
      happening.Honest t :=
  resolveBrace_reports trivial
    (fun _ => fieldFiller_reports (fun _ => trivial) (fun _ => trivial) s record filled c) rest

/-- What a progress shows is honest, and so is what it leaves. -/
structure Progress.Upright (t : Text) (p : Progress (List Cell)) : Prop where
  fair : ∀ d ∈ p.state, Fair t d
  trace : ∀ happening ∈ p.trace, happening.Honest t

theorem Progress.Upright.after {p : Progress (List Cell)} {trace : List Happening}
    (h : p.Upright t) (htrace : ∀ happening ∈ trace, happening.Honest t) :
    (p.after trace).Upright t where
  fair := h.fair
  trace happening hmem := (List.mem_append.mp hmem).elim (htrace happening) (h.trace happening)

/-- A step that reports honestly is followed by a buffer of fair cells. -/
theorem honest_step {phase : Phase} {trace : List Happening} {f : Front} (index : Nat)
    (htrace : ∀ happening ∈ trace, happening.Honest t) (hf : ∀ d ∈ f.cells, Fair t d) :
    ∀ happening ∈ .met phase index :: trace ++ phase.report (f.buffer spare),
      happening.Honest t := by
  intro happening hmem
  have hbuffer : ∀ d ∈ (f.buffer spare).cells, Honest t d := honest_ofCells hf spare
  rcases List.mem_append.mp hmem with hmem | hmem
  · rcases List.mem_cons.mp hmem with rfl | hmem
    · trivial
    · exact htrace happening hmem
  · cases phase with
    | fields =>
      rw [List.mem_singleton.mp hmem]
      exact hbuffer
    | commands =>
      rcases List.mem_cons.mp hmem with rfl | hmem
      · exact hbuffer
      · rw [List.mem_singleton.mp hmem]
        exact hbuffer

/-- **A sweep over fields keeps what is said of the placeholders that are open**, also when a field
    fails. -/
theorem Untouched.upright_sweep (hQ : Hereditary Q) (hT : ∀ c items, Q c items → TemplateOnly c items)
    (h : Untouched t Q done rest) (s : Splitter) (record : Record) (spare : List Mark) (filled : Nat) :
    (sweep .fields (fieldFiller s record) spare filled done rest).Upright t ∧
      OpenFields Q none (sweep .fields (fieldFiller s record) spare filled done rest).state := by
  fun_induction sweep .fields (fieldFiller s record) spare filled done rest with
  | case1 filled done =>
    have hfair := h.fair
    have hopened := h.opened_all
    rw [List.append_nil] at hfair hopened
    exact ⟨⟨hfair, fun _ hmem => absurd hmem List.not_mem_nil⟩, hopened⟩
  | case2 =>
    exact ⟨⟨h.fair, fun _ hmem => absurd hmem List.not_mem_nil⟩, h.opened_all⟩
  | case3 filled done c rest hl ih => exact ih (h.pass hl)
  | case4 filled done c rest hl trace e hr =>
    refine ⟨⟨h.fair, List.forall_mem_cons.mpr ⟨trivial, ?_⟩⟩, h.opened_all⟩
    have htrace := honest_resolveField t s record filled done c rest
    rwa [hr] at htrace
  | case5 filled done c rest hl trace f hr _ ih =>
    have hf := h.resolve hQ hT hl hr
    obtain ⟨hupright, hopened⟩ := ih hf
    have htrace := honest_resolveField t s record filled done c rest
    rw [hr] at htrace
    exact ⟨hupright.after (honest_step done.length htrace hf.fair), hopened⟩

/-- **The phase of fields keeps what is said of the placeholders that are open.** -/
theorem openFields_settle (hQ : Hereditary Q) (hT : ∀ c items, Q c items → TemplateOnly c items)
    (s : Splitter) (record : Record) (spare : List Mark) (cells : List Cell)
    (hfair : ∀ d ∈ cells, Fair t d) (hopened : OpenFields Q none cells) :
    (settle (fieldFiller s record) spare cells).Upright t ∧
      OpenFields Q none (settle (fieldFiller s record) spare cells).state := by
  have hstart : ∀ cells, (∀ d ∈ cells, Fair t d) → OpenFields Q none cells →
      Untouched t Q [] cells := fun cells hfair hopened =>
    ⟨fun d hd => absurd hd List.not_mem_nil, hfair, trivial, hopened⟩
  fun_induction settle (fieldFiller s record) spare cells with
  | case1 cells p hp _ ih =>
    obtain ⟨hupright, hopened⟩ := (hstart cells hfair hopened).upright_sweep hQ hT s record spare 0
    obtain ⟨hupright', hopened'⟩ := ih hupright.fair hopened
    refine ⟨hupright'.after fun happening hmem => ?_, hopened'⟩
    rcases List.mem_append.mp hmem with hmem | hmem
    · exact hupright.trace happening hmem
    · unfold Progress.surveying at hmem
      split at hmem
      · rw [List.mem_singleton.mp hmem]
        exact honest_ofCells hupright.fair spare
      · exact absurd hmem List.not_mem_nil
  | case2 cells p hp => exact (hstart cells hfair hopened).upright_sweep hQ hT s record spare 0

/-! ## 4. Sweeps over commands -/

/-- What is said of the inside of a placeholder keeps live command braces out of it. -/
def KeepsCommandsOut (Q : Cell → List Cell → Prop) : Prop :=
  ∀ c items, Q c items → Phase.commands.hasLive Phase.anyCell (some c) items = false

/-- Inside is template without commands. -/
theorem keepsCommandsOut_template :
    KeepsCommandsOut fun c items => TemplateOnly c items ∧ NoCommand c items := by
  rintro c items ⟨htemplate, hnone⟩
  have hsame : ∀ {items : List Cell} {before : Option Cell}, (∀ d ∈ items, d.mark = some .trusted) →
      Phase.commands.hasLive Phase.anyCell before items
        = Phase.commands.hasLive Phase.ofTemplate before items := by
    intro items
    induction items with
    | nil => exact fun _ => rfl
    | cons d items ih =>
      intro before h
      rw [Phase.hasLive, Phase.hasLive, ih fun e he => h e (List.mem_cons_of_mem d he),
        Phase.anyCell, Phase.ofTemplate, h d List.mem_cons_self]
      rfl
  rw [hsame htemplate]
  exact hnone

/-- **A placeholder inside which no command is live is closed in front of the next live command.** -/
theorem closed_before_command
    (hnone : Phase.commands.hasLive Phase.anyCell (some e) (interiorOf (front ++ c :: rest)) = false)
    (hl : Phase.commands.live (front.getLast?.or (some e)) c rest.head? = true) :
    ∃ items close back, front = items ++ close :: back ∧ close.token = .closing ∧
      Brace.Level.overAll Cell.token ⟨0, false⟩ items = some ⟨0, false⟩ := by
  obtain ⟨hc, _, d, hd, ho⟩ := Phase.isLive_eq_true (Phase.isLive_of_live hl)
  -- the command is not inside, where it would be live
  have houtside : ∀ tail, tail.head? = rest.head? →
      interiorOf (front ++ c :: rest) ≠ front ++ c :: tail := by
    intro tail htail hinside
    rw [hinside] at hnone
    have hcalm := (along_append.mp (Phase.hasLive_eq_false_iff.mp hnone)).2.1
    rw [Option.or_none, htail, Phase.Calm, hl] at hcalm
    cases hcalm
  cases hscan : Brace.scan Cell.token 0 false (front ++ c :: rest) with
  | unterminated => exact absurd (by rw [interiorOf, hscan]) (houtside rest rfl)
  | unknown => exact absurd (by rw [interiorOf, hscan]) (houtside rest rfl)
  | closed items after =>
    obtain ⟨close, hsplit, hclose, hlevel⟩ := Brace.overAll_of_scan_closed (l := ⟨0, false⟩) hscan
    have hchar := Cell.char_of_token_closing hclose
    have hne : c ≠ close := by
      rintro rfl
      rw [hc] at hchar
      exact absurd hchar (by decide)
    rcases List.append_eq_append_iff.mp hsplit with ⟨tail, hitems, htail⟩ | ⟨back, hfront, hback⟩
    · cases tail with
      | nil => exact absurd (List.cons.inj htail).1 hne
      | cons x tail =>
        obtain ⟨rfl, hrest⟩ := List.cons.inj htail
        refine absurd ?_ (houtside tail ?_)
        · rw [interiorOf, hscan, hitems]
        · cases tail with
          | nil =>
            rw [hrest] at hd
            cases hd
            rw [hchar] at ho
            exact absurd ho (by decide)
          | cons y tail =>
            rw [hrest]
            rfl
    · cases back with
      | nil => exact absurd (List.cons.inj hback).1.symm hne
      | cons x back =>
        obtain ⟨rfl, _⟩ := List.cons.inj hback
        exact ⟨items, close, back, hfront, hclose, hlevel⟩

/-- **From a live command on, anything may be replaced.** Field placeholders in front of it are
    closed there, or were open around the command, which nothing that is said allows. -/
theorem OpenFields.replace {new : List Cell} (hK : KeepsCommandsOut Q)
    (h : OpenFields Q none (front ++ c :: rest))
    (hl : Phase.commands.live front.getLast? c rest.head? = true)
    (hnew : OpenFields Q front.getLast? new) : OpenFields Q none (front ++ new) := by
  obtain ⟨hc, _⟩ := Phase.isLive_eq_true (Phase.isLive_of_live hl)
  refine openFields_append (fun first e last hsplit hlive hm => ?_) (by rwa [Option.or_none])
  rw [hsplit] at h hl
  rw [List.append_assoc, List.cons_append] at h
  have hback := h.back.1
  have hseam : (first ++ e :: last).getLast? = last.getLast?.or (some e) := by
    rw [List.getLast?_append, List.getLast?_cons]
    cases last.getLast? <;> rfl
  rw [hseam] at hl
  -- a brace that is live in front of the new cells was live in front of the command
  have hopen : Phase.fields.live (first.getLast?.or none) e (last ++ c :: rest).head? = true := by
    cases last with
    | cons x last => exact hlive
    | nil =>
      refine Classical.byContradiction fun hclosed => ?_
      have hnever := Phase.live_eq_false_of_opens (x := c) (by rw [hc]; decide)
        (Bool.eq_false_iff.mpr hclosed) new.head?
      rw [List.nil_append, hnever] at hlive
      cases hlive
  have hQ := hback hopen hm
  obtain ⟨items, close, back, rfl, hclose, hlevel⟩ := closed_before_command (hK e _ hQ) hl
  rw [List.append_assoc, List.cons_append, interiorOf_closed hclose hlevel] at hQ ⊢
  exact hQ

/-- **A step over commands keeps what is said of the placeholders that are open.** -/
theorem openFields_resolveCommand {trace : List Happening} {f : Front} (hK : KeepsCommandsOut Q)
    (h : OpenFields Q none (done.reverse ++ c :: rest))
    (hl : Phase.commands.isLive done.head? c rest.head? = .ok true)
    (hr : resolveBrace .commands (commandFiller runner) filled done c rest = (trace, .ok f)) :
    OpenFields Q none (f.done.reverse ++ f.rest) := by
  have hlast : done.reverse.getLast? = done.head? := List.getLast?_reverse
  have hlive : Phase.commands.live done.reverse.getLast? c rest.head? = true := by
    rw [hlast, Phase.live, hl]
  have hback : OpenFields Q (some c) rest := h.back.2
  obtain ⟨m, _, _, _, rfl⟩ | ⟨_, interior, after, filling, hscan, hfill, rfl⟩ := resolveBrace_cases hr
  · -- neither the guard nor the guarded brace is a live field brace
    have hguarded : OpenFields Q done.reverse.getLast? (guardCell :: c :: rest) := by
      refine ⟨fun hlive => ?_, fun hlive => ?_, hback⟩
      · rw [Phase.live_eq_false_of_ne (by decide)] at hlive
        cases hlive
      · rw [Phase.live_guarded] at hlive
        cases hlive
    have hnew := h.replace hK hlive hguarded
    rwa [List.reverse_cons, List.reverse_cons, List.append_assoc, List.append_assoc]
  obtain ⟨close, hclose, rfl⟩ := Brace.scan_closed _ _ _ _ _ _ hscan
  cases filling with
  | data value =>
    have hafter : OpenFields Q (some close) after := hback.back.2
    have hdata : OpenFields Q done.reverse.getLast? (Cell.ofText .resolved value ++ after) :=
      openFields_data (by decide) value (hafter.of_before (unescapedAfter_closing hclose))
    have hnew := h.replace hK hlive hdata
    show OpenFields Q none (((Cell.ofText .resolved value).reverse ++ done).reverse ++ after)
    rwa [List.reverse_append, List.reverse_reverse, List.append_assoc]
  | template cells =>
    obtain ⟨_, _, _, hf⟩ := commandFiller_cases hfill
    cases hf

/-- **A sweep over commands keeps what is said of the placeholders that are open**, also when a
    command fails. -/
theorem openFields_sweepCommands (hK : KeepsCommandsOut Q) (runner : Runner) (spare : List Mark)
    (filled : Nat) (done rest : List Cell) (h : OpenFields Q none (done.reverse ++ rest)) :
    OpenFields Q none (sweep .commands (commandFiller runner) spare filled done rest).state := by
  fun_induction sweep .commands (commandFiller runner) spare filled done rest with
  | case1 filled done => rwa [List.append_nil] at h
  | case2 => exact h
  | case3 filled done c rest hl ih =>
    refine ih ?_
    rwa [List.reverse_cons, List.append_assoc, List.singleton_append]
  | case4 => exact h
  | case5 filled done c rest hl trace f hr _ ih => exact ih (openFields_resolveCommand hK h hl hr)

/-- A step over commands runs a command for its own brace, and only if that is of the template. -/
theorem honest_resolveCommand (runner : Runner) (filled : Nat) (hc : c.char = ('{' : CodePoint))
    (hhonest : Honest t c)
    (done rest : List Cell) :
    ∀ happening ∈ (resolveBrace .commands (commandFiller runner) filled done c rest).1,
      happening.Honest t := by
  refine resolveBrace_reports trivial (fun hmark interior => ?_) rest
  obtain ⟨place, hplace⟩ := hhonest.place_of_trusted hmark
  obtain ⟨hat, hstands⟩ := hhonest.of_place hplace
  rw [hc] at hat hstands
  exact commandFiller_reports ⟨place, hat, hstands⟩ (fun _ => trivial) runner filled

/-- **A sweep over commands is honest wherever it begins**: it takes nothing over from what it
    replaces. -/
theorem upright_sweepCommands (runner : Runner) (spare : List Mark) (filled : Nat)
    (done rest : List Cell) (hdone : ∀ d ∈ done, Fair t d) (hrest : ∀ d ∈ rest, Fair t d) :
    (sweep .commands (commandFiller runner) spare filled done rest).Upright t := by
  have hall : ∀ done rest : List Cell, (∀ d ∈ done, Fair t d) → (∀ d ∈ rest, Fair t d) →
      ∀ d ∈ done.reverse ++ rest, Fair t d := by
    intro done rest hdone hrest d hd
    rcases List.mem_append.mp hd with hd | hd
    · exact hdone d (List.mem_reverse.mp hd)
    · exact hrest d hd
  fun_induction sweep .commands (commandFiller runner) spare filled done rest with
  | case1 filled done =>
    exact ⟨fun d hd => hdone d (List.mem_reverse.mp hd), fun _ hmem => absurd hmem List.not_mem_nil⟩
  | case2 =>
    exact ⟨hall _ _ hdone hrest, fun _ hmem => absurd hmem List.not_mem_nil⟩
  | case3 filled done c rest hl ih =>
    exact ih (List.forall_mem_cons.mpr ⟨hrest c List.mem_cons_self, hdone⟩)
      fun d hd => hrest d (List.mem_cons_of_mem c hd)
  | case4 filled done c rest hl trace e hr =>
    obtain ⟨hc, _⟩ := Phase.isLive_eq_true hl
    have htrace := honest_resolveCommand runner filled hc
      (hrest c List.mem_cons_self).1 done rest
    rw [hr] at htrace
    exact ⟨hall _ _ hdone hrest, List.forall_mem_cons.mpr ⟨trivial, htrace⟩⟩
  | case5 filled done c rest hl trace f hr _ ih =>
    obtain ⟨hc, _⟩ := Phase.isLive_eq_true hl
    have htrace := honest_resolveCommand runner filled hc
      (hrest c List.mem_cons_self).1 done rest
    rw [hr] at htrace
    obtain ⟨hd, hr⟩ := resolveBrace_forall (fair_guard t) (fair_data t)
      (commandFiller_keeps runner _) hdone hrest hr
    exact (ih hd hr).after (honest_step done.length htrace (hall _ _ hd hr))

/-! ## 5. Calls one after the other -/

/-- What a phase leaves on a buffer are the cells of its last sweep. -/
theorem Progress.Upright.cells_onBuffer {p : Progress (List Cell)} (h : p.Upright t)
    (spare : List Mark) : (p.onBuffer spare).state.cells = p.state :=
  Buffer.cells_ofCells (fun d hd => (h.fair d hd).2) spare

/-- **Calls in order keep data marked as data**, from any buffer with nothing but template inside
    the placeholders that are open, and from any fair buffer if no phase of fields is called. -/
theorem honest_performed (s : Splitter) (calls : List PhaseCall) :
    ∀ b : Buffer, (∀ d ∈ b.cells, Fair t d) →
      (OpenFields TemplateOnly none b.cells ∨ ∀ call ∈ calls, call.isFields = false) →
      InOrder s calls b →
      ∀ p ∈ performed s calls b,
        (∀ c ∈ p.state.cells, Honest t c) ∧ ∀ happening ∈ p.trace, happening.Honest t := by
  induction calls with
  | nil => exact fun _ _ _ _ p hp => absurd hp List.not_mem_nil
  | cons call later ih =>
    intro b hfair hopened horder
    cases call with
    | fields record =>
      have hinside : OpenFields TemplateOnly none b.cells :=
        hopened.resolve_right fun hnone => by cases hnone _ List.mem_cons_self
      obtain ⟨hupright, hleft⟩ := openFields_settle hereditary_templateOnly (fun _ _ h => h) s record
        b.spareMarks b.cells hfair hinside
      have hcells := hupright.cells_onBuffer b.spareMarks
      refine List.forall_mem_cons.mpr ⟨⟨?_, hupright.trace⟩, ih _ ?_ (.inl ?_) horder⟩
      · exact honest_ofCells hupright.fair b.spareMarks
      · exact hcells ▸ hupright.fair
      · exact hcells ▸ hleft
    | commands runner =>
      have hupright : (sweep .commands (commandFiller runner) b.spareMarks 0 [] b.cells).Upright t :=
        upright_sweepCommands runner b.spareMarks 0 [] b.cells
          (fun d hd => absurd hd List.not_mem_nil) hfair
      have hcells := hupright.cells_onBuffer b.spareMarks
      refine List.forall_mem_cons.mpr ⟨⟨?_, hupright.trace⟩, ih _ ?_ ?_ horder.2⟩
      · exact honest_ofCells hupright.fair b.spareMarks
      · exact hcells ▸ hupright.fair
      · rcases hopened with hinside | hnone
        · rcases horder.1 with houtside | hnone
          · have hkept := openFields_sweepCommands keepsCommandsOut_template runner b.spareMarks 0 []
              b.cells (hinside.and houtside)
            exact .inl (hcells ▸ hkept.imp fun _ _ h => h.1)
          · exact .inr hnone
        · exact .inr fun call hcall => hnone call (List.mem_cons_of_mem _ hcall)

/-- **A template with no command inside a field placeholder stays so**, and every order of calls is
    in order. -/
theorem inOrder_of_outside (s : Splitter) (calls : List PhaseCall) :
    ∀ b : Buffer, (∀ d ∈ b.cells, Fair t d) →
      OpenFields (fun c items => TemplateOnly c items ∧ NoCommand c items) none b.cells →
        InOrder s calls b := by
  induction calls with
  | nil => exact fun _ _ _ => trivial
  | cons call later ih =>
    intro b hfair hopened
    cases call with
    | fields record =>
      obtain ⟨hupright, hleft⟩ := openFields_settle (hereditary_templateOnly.and hereditary_noCommand)
        (fun _ _ h => h.1) s record b.spareMarks b.cells hfair hopened
      have hcells := hupright.cells_onBuffer b.spareMarks
      exact ih _ (hcells ▸ hupright.fair) (hcells ▸ hleft)
    | commands runner =>
      have hupright : (sweep .commands (commandFiller runner) b.spareMarks 0 [] b.cells).Upright t :=
        upright_sweepCommands runner b.spareMarks 0 [] b.cells
          (fun d hd => absurd hd List.not_mem_nil) hfair
      have hcells := hupright.cells_onBuffer b.spareMarks
      have hleft := openFields_sweepCommands keepsCommandsOut_template runner b.spareMarks 0 []
        b.cells hopened
      exact ⟨.inl (hopened.imp fun _ _ h => h.2), ih _ (hcells ▸ hupright.fair) (hcells ▸ hleft)⟩

/-- **A phase of fields that is successful leaves no field placeholder of the template open.** -/
theorem hasLive_settle (filler : Filler) (spare : List Mark) (cells : List Cell)
    (h : (settle filler spare cells).error = none) :
    Phase.fields.hasLive Phase.ofTemplate none (settle filler spare cells).state = false := by
  fun_induction settle filler spare cells with
  | case1 cells p hp _ ih => exact ih h
  | case2 cells p hp => exact hasLive_sweep_template filler spare 0 [] cells trivial h

theorem fair_template (t : Text) : ∀ d ∈ (Buffer.ofTemplate t).cells, Fair t d := by
  rw [Buffer.cells_ofTemplate]
  exact fun d hd => ⟨honest_ofTemplate t d hd, Cell.allMarked_ofTemplate t d hd⟩

theorem openFields_ofTemplate (t : Text) :
    OpenFields TemplateOnly none (Buffer.ofTemplate t).cells := by
  rw [Buffer.cells_ofTemplate]
  exact openFields_template Cell.trusted_ofTemplate

/-- **After a phase of fields that is successful, every order of calls is in order.** -/
theorem inOrder_of_resolved {s : Splitter} {t : Text} {record : Record}
    (h : (resolveFields s record (.ofTemplate t)).error = none) (later : List PhaseCall) :
    InOrder s (.fields record :: later) (.ofTemplate t) := by
  obtain ⟨hupright, _⟩ := openFields_settle hereditary_templateOnly (fun _ _ h => h) s record
    (Buffer.ofTemplate t).spareMarks _ (fair_template t) (openFields_ofTemplate t)
  have hcells := hupright.cells_onBuffer (Buffer.ofTemplate t).spareMarks
  have hleft := hasLive_settle (fieldFiller s record) (Buffer.ofTemplate t).spareMarks _ h
  refine inOrder_of_outside s later _ (hcells ▸ hupright.fair) (hcells ▸ ?_)
  exact (openFields_false_iff.mpr hleft).imp fun _ _ h => h.elim

/-- **A template with no command inside a field placeholder admits every order of calls.** -/
theorem inOrder_of_commandsOutside {t : Text} (h : (Buffer.ofTemplate t).CommandsOutside)
    (s : Splitter) (calls : List PhaseCall) : InOrder s calls (.ofTemplate t) :=
  inOrder_of_outside s calls _ (fair_template t) ((openFields_ofTemplate t).and h)

/-- **Data is never trusted if the phases are called in order.** Call the phases on the buffer of a
    template as often as you like, with any records and any runners, and go on after failures. Unless
    a phase of fields comes after a phase of commands that found a command of the template inside an
    open field placeholder of it, a cell is marked as trusted at any time exactly if it stands in the
    template at the place it knows, and every command is run for an opening brace of the template. -/
theorem data_stays_data (s : Splitter) (t : Text) (calls : List PhaseCall)
    (h : InOrder s calls (.ofTemplate t)) :
    ∀ p ∈ performed s calls (.ofTemplate t),
      (∀ c ∈ p.state.cells, Honest t c) ∧ ∀ happening ∈ p.trace, happening.Honest t :=
  honest_performed s calls _ (fair_template t) (.inl (openFields_ofTemplate t)) h

/-- A command that answers with a command. -/
def tempting : Runner := fun _ _ => .ok ⟨"{!b}", []⟩

/-- Both phases twice, in the order of an expansion, on a command in a fallback. -/
theorem data_stays_data_twice :
    InOrder .standard [.fields [], .commands tempting, .fields [], .commands tempting]
      (.ofTemplate "{9?{!a}}") ∧
    ∀ p ∈ performed .standard [.fields [], .commands tempting, .fields [], .commands tempting]
        (.ofTemplate "{9?{!a}}"),
      (∀ c ∈ p.state.cells, Honest "{9?{!a}}" c) ∧
        ∀ happening ∈ p.trace, happening.Honest "{9?{!a}}" := by
  have horder : InOrder .standard [.fields [], .commands tempting, .fields [], .commands tempting]
      (.ofTemplate "{9?{!a}}") := inOrder_of_resolved (by decide +kernel) _
  exact ⟨horder, data_stays_data .standard "{9?{!a}}" _ horder⟩

/-- **A fallback trusts the output of a command.** If the commands of the template `{9?{!a}}` are run
    before its fields are filled, the output `{!b}` is part of the fallback and marked as trusted,
    and if the commands are run again, one is run for its brace, which is not of the template. -/
theorem fallback_trusts_output :
    let t : Text := "{9?{!a}}"
    let calls : List PhaseCall := [.commands tempting, .fields [], .commands tempting]
    (¬ ∀ p ∈ performed .standard calls (.ofTemplate t), ∀ c ∈ p.state.cells, Honest t c) ∧
      ¬ ∀ p ∈ performed .standard calls (.ofTemplate t), ∀ happening ∈ p.trace,
          happening.Honest t := by
  intro t calls
  have hlaundered : ∃ p ∈ performed .standard calls (.ofTemplate t), ∃ c ∈ p.state.cells,
      c.origin = none ∧ c.mark = some .trusted := by decide +kernel
  have hcalled : ∃ p ∈ performed .standard calls (.ofTemplate t),
      ∃ call ∈ p.trace.filterMap Happening.call?, call.1.origin = none := by decide +kernel
  constructor
  · intro hhonest
    obtain ⟨p, hp, c, hc, horigin, hmark⟩ := hlaundered
    obtain ⟨i, hi⟩ := (hhonest p hp c hc).place_of_trusted hmark
    rw [horigin] at hi
    cases hi
  · intro hhonest
    obtain ⟨p, hp, call, hcall, horigin⟩ := hcalled
    obtain ⟨happening, hmem, hsome⟩ := List.mem_filterMap.mp hcall
    have h := hhonest p hp happening hmem
    cases happening with
    | running brace interior command =>
      cases hsome
      obtain ⟨place, hbrace, _⟩ := h
      rw [hbrace] at horigin
      cases horigin
    | _ => cases hsome

end GraphFeed
