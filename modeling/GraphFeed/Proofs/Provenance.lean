import GraphFeed.Proofs.Fallback
import GraphFeed.Proofs.Guarding

/-!
# Commands come from the template

Whatever a record and the outputs of commands hold, commands are run for braces of the template
alone, each for a place of its own and from left to right (`calls_of_template`).

Data and template become neighbours with every placeholder that is filled: a brace of data may come
to stand before an exclamation mark of the template, and a backslash of data before a brace. What
does not change is said of three cells in a row (`Placed`): a cell that knows its place in the
template holds what stands there, the backslash before its place still stands before it, and behind
an unescaped brace of the template still stands what stands behind it there.

* `Sound.resolve`: a step of the first sweep over fields keeps this, because no live brace has been
  passed, the question mark before a fallback is no backslash, and a brace that ends a fallback is
  escaped.
* `along_guarded`: so do the guards, which only part braces of data from what is before them.
* `calls_sweep`: so does the sweep over commands, and the braces for which it runs commands are
  among the cells it had left to read, in order.
-/

namespace GraphFeed

open Buffer (Cell)

/-! ## 1. Places -/

/-- At a place of a template a command placeholder may open: an opening brace stands there with an
    exclamation mark behind it, and no backslash before it. -/
def opensCommandAt (t : Text) (place : Nat) : Bool :=
  t[place]? = some ('{' : CodePoint) && t[place + 1]? = some ('!' : CodePoint)
    && (place = 0 || t[place - 1]? ≠ some ('\\' : CodePoint))

/-- The places of a template at which a command placeholder may open, from left to right. -/
def commandPlaces (t : Text) : List Nat := (List.range t.length).filter (opensCommandAt t)

/-- The cell of a code point that stands at a place of the template. -/
def Buffer.Cell.at (place : Nat) (c : CodePoint) : Cell := ⟨⟨c, some place⟩, some .trusted⟩

/-- The places that cells know, in order. -/
def places (cells : List Cell) : List Nat := cells.filterMap (·.origin)

@[simp] theorem places_append (a b : List Cell) : places (a ++ b) = places a ++ places b :=
  List.filterMap_append

theorem places_ofText (mark : Mark) (value : Text) : places (Cell.ofText mark value) = [] := by
  refine List.filterMap_eq_nil_iff.mpr fun c hc => ?_
  obtain ⟨x, _, rfl⟩ := List.mem_map.mp hc
  rfl

theorem places_ofTemplate (t : Text) : places (Cell.ofTemplate t) = List.range t.length := by
  rw [places, Cell.ofTemplate, List.filterMap_map, List.range_eq_range']
  have h : ∀ (t : Text) (n : Nat), List.filterMap ((fun c : Cell => c.origin) ∘
      fun p : CodePoint × Nat => ⟨⟨p.1, some p.2⟩, some Mark.trusted⟩) (t.zipIdx n)
        = List.range' n t.length := by
    intro t
    induction t with
    | nil => intro n; rfl
    | cons c t ih =>
      intro n
      rw [List.zipIdx_cons, List.filterMap_cons, ih (n + 1)]
      rfl
  exact h t 0

/-- What is said of a cell: it knows a place if it is of the template, and holds what stands there. -/
def Honest (t : Text) (c : Cell) : Prop :=
  match c.origin with
  | some i => c.mark = some .trusted ∧ t[i]? = some c.char
  | none => c.mark ≠ some .trusted

/-- What is said of a cell and its neighbours. -/
structure Placed (t : Text) (before : Option Cell) (c : Cell) (next : Option Cell) : Prop where
  honest : Honest t c
  /-- The backslash before its place stands before the cell. -/
  behind : ∀ i, c.origin = some (i + 1) → t[i]? = some ('\\' : CodePoint) →
    ∃ b, before = some b ∧ b.origin = some i
  /-- Behind an unescaped brace stands what stands behind its place. -/
  ahead : ∀ i, c.origin = some i → c.char = ('{' : CodePoint) → unescapedAfter before = .ok true →
    ∀ n ∈ next, n.origin = some (i + 1)

variable {t : Text} {before next : Option Cell} {c : Cell}

theorem Honest.of_place {i : Nat} (h : Honest t c) (hi : c.origin = some i) :
    c = .at i c.char ∧ t[i]? = some c.char := by
  unfold Honest at h
  rw [hi] at h
  obtain ⟨⟨ch, origin⟩, mark⟩ := c
  cases hi
  exact ⟨by rw [Cell.at, ← h.1], h.2⟩

theorem Honest.trusted {i : Nat} (h : Honest t c) (hi : c.origin = some i) :
    c.mark = some .trusted := by
  rw [(h.of_place hi).1]
  rfl

theorem Honest.place_of_trusted (h : Honest t c) (hm : c.mark = some .trusted) :
    ∃ i, c.origin = some i := by
  unfold Honest at h
  cases hi : c.origin with
  | some i => exact ⟨i, rfl⟩
  | none => rw [hi] at h; exact absurd hm h

theorem Honest.noPlace (h : Honest t c) (hm : c.mark ≠ some .trusted) : c.origin = none := by
  cases hi : c.origin with
  | some i => exact absurd (h.trusted hi) hm
  | none => rfl

theorem honest_ofTemplate (t : Text) : ∀ c ∈ Cell.ofTemplate t, Honest t c := by
  intro c hc
  obtain ⟨i, hi, hti⟩ := Cell.mem_ofTemplate hc
  rw [hi]
  exact ⟨rfl, hti⟩

/-- Of a cell that is not of the template, nothing is said but that. -/
theorem placed_of_noPlace (ho : c.origin = none) (hm : c.mark ≠ some .trusted) :
    Placed t before c next where
  honest := by rw [Honest, ho]; exact hm
  behind i hi := by rw [ho] at hi; cases hi
  ahead i hi := by rw [ho] at hi; cases hi

/-- Behind a cell that is no backslash, it does not matter what is before. -/
theorem Placed.of_before {y : Cell} (h : Placed t (some y) c next) (hy : Honest t y)
    (hne : y.char ≠ ('\\' : CodePoint)) (before : Option Cell) : Placed t before c next where
  honest := h.honest
  behind i hi hslash := by
    obtain ⟨b, hb, hbi⟩ := h.behind i hi hslash
    cases hb
    rw [(hy.of_place hbi).2] at hslash
    exact absurd (Option.some.inj hslash) hne
  ahead i hi hc _ := h.ahead i hi hc (by simp [unescapedAfter, hne])

/-- A cell may be followed by another one, if it is no unescaped brace of the template. -/
theorem Placed.of_next {next' : Option Cell} (h : Placed t before c next)
    (hc : c.char = ('{' : CodePoint) → c.mark = some .trusted → unescapedAfter before ≠ .ok true) :
    Placed t before c next' where
  honest := h.honest
  behind := h.behind
  ahead _ hi hchar hu := absurd hu (hc hchar (h.honest.trusted hi))

/-- Every cell of a template is where it belongs. -/
theorem along_ofTemplate (t : Text) : Along (Placed t) none (Cell.ofTemplate t) none := by
  have hcell : ∀ i, (Cell.ofTemplate t)[i]? = t[i]?.map (Cell.at i) := by
    intro i
    simp only [Cell.ofTemplate, List.getElem?_map, List.getElem?_zipIdx, Option.map_map, Nat.zero_add]
    rfl
  refine along_of_getElem? fun i x hx => ?_
  rw [hcell, Option.map_eq_some_iff] at hx
  obtain ⟨ch, hch, rfl⟩ := hx
  refine ⟨⟨rfl, hch⟩, fun j hj hslash => ?_, fun j hj _ _ n hn => ?_⟩
  · cases hj
    rw [if_neg (Nat.succ_ne_zero j), Nat.add_sub_cancel, hcell, hslash]
    exact ⟨_, rfl, rfl⟩
  · cases hj
    rw [hcell, Option.or_none] at hn
    obtain ⟨d, _, rfl⟩ := Option.map_eq_some_iff.mp hn
    rfl

/-! ## 2. The first sweep over fields -/

/-- What holds between two steps of the first sweep. -/
structure Sound (t : Text) (done rest : List Cell) : Prop where
  placed : Along (Placed t) none (done.reverse ++ rest) none
  calm : Along (Phase.fields.Calm Phase.ofTemplate) none done.reverse rest.head?
  /-- Guards are not put in before the second sweep. -/
  marks : ∀ d ∈ done, d.mark = some .trusted ∨ d.mark = some .resolved
  unread : ∀ d ∈ rest, d.mark = some .trusted

/-- Items that have been taken over may be followed by any item, once a brace opens behind them. -/
theorem Sound.done_before {done rest : List Cell} (h : Sound t done (c :: rest))
    (hc : c.char = ('{' : CodePoint)) (next : Option Cell) :
    Along (Placed t) none done.reverse next := by
  have hplaced := (along_reverse_append.mp h.placed).1
  refine (hplaced.and h.calm).imp_next (fun _ _ _ hd => hd.1) fun b d hd => ?_
  obtain ⟨hd, hcalm⟩ := hd
  refine hd.of_next fun hchar hmark hu => ?_
  have hlive : Phase.fields.live b d (some c) = true := by
    simp [Phase.live, Phase.isLive, hchar, hu, hc, Phase.opens]
  change (Phase.fields.live b d (some c) && Phase.ofTemplate d) = false at hcalm
  rw [hlive, Phase.ofTemplate, hmark] at hcalm
  exact absurd hcalm (by decide)

/-- What stands behind a closing brace may come to stand behind any cell. -/
theorem along_after {interior after : List Cell} {close : Cell}
    (h : Along (Placed t) before (interior ++ close :: after) none)
    (hclose : close.char = ('}' : CodePoint)) (before' : Option Cell) :
    Along (Placed t) before' after none := by
  obtain ⟨hc, hafter⟩ := (along_append.mp h).2
  exact hafter.of_before fun x n hx =>
    hx.of_before hc.honest (by rw [hclose]; decide) before'

/-- The cells of a fallback may come to stand between any cells. -/
theorem along_fallbackCells {p : Placeholder} {interior : List Cell}
    (h : Along (Placed t) before interior next)
    (hp : Placeholder.ofInterior (Cell.text interior) = .ok p)
    (hmarks : ∀ d ∈ interior, d.mark = some .trusted)
    (hscan : Brace.Level.overAll Cell.token ⟨0, false⟩ interior = some ⟨0, false⟩)
    (before' next' : Option Cell) :
    Along (Placed t) before' (p.fallbackCells interior) next' := by
  rcases Placeholder.fallback_split hp hmarks with hf | ⟨front, mark, trail, hi, hmark, _⟩
  · have hnil : p.fallbackCells interior = [] := by
      rw [Placeholder.fallbackCells, hf]
      rfl
    rw [hnil]
    trivial
  have hbehind : ∃ n, Along (Placed t) before' (p.fallbackCells interior) n := by
    rw [hi, List.append_assoc] at h
    obtain ⟨_, hm, hcells⟩ := along_append.mp h
    obtain ⟨hcells, _⟩ := along_append.mp hcells
    exact ⟨_, hcells.of_before fun x n hx =>
      hx.of_before hm.honest (by rw [hmark]; decide) before'⟩
  obtain ⟨n, hn⟩ := hbehind
  rcases List.eq_nil_or_concat (p.fallbackCells interior) with hnil | ⟨cells, x, hcells⟩
  · rw [hnil]
    trivial
  rw [List.concat_eq_append] at hcells
  rw [hcells, along_concat] at hn ⊢
  refine ⟨hn.1, hn.2.of_next fun hchar _ hu => ?_⟩
  -- a brace that ends the fallback is escaped there
  obtain ⟨cells', y, rfl, hy, hymark⟩ := Placeholder.fallback_brace hp hmarks hscan hcells hchar
  rw [List.getLast?_concat, Option.some_or] at hu
  simp [unescapedAfter, hy, hymark] at hu

/-- **A step of the first sweep keeps every cell where it belongs.** -/
theorem Sound.resolve {s : Splitter} {record : Record} {filled : Nat} {done rest : List Cell}
    {trace : List Happening} {f : Front} (h : Sound t done (c :: rest))
    (hc : c.char = ('{' : CodePoint))
    (hr : resolveBrace .fields (fieldFiller s record) filled done c rest = (trace, .ok f)) :
    Sound t f.done f.rest := by
  obtain ⟨m, hm, hne, _⟩ | ⟨hmark, interior, after, filling, hscan, hfill, rfl⟩ :=
    resolveBrace_cases hr
  · rw [h.unread c List.mem_cons_self] at hm
    cases hm
    exact absurd rfl hne
  obtain ⟨close, rfl, hclose, hover⟩ := Brace.overAll_of_scan_closed (l := ⟨0, false⟩) hscan
  have hinterior : ∀ d ∈ interior, d.mark = some .trusted := fun d hd => h.unread d (by simp [hd])
  have hafter : ∀ d ∈ after, d.mark = some .trusted := fun d hd => h.unread d (by simp [hd])
  have hrest := ((along_reverse_append.mp h.placed).2).2
  have hdone := h.done_before hc
  have hbehind := along_after hrest (Cell.char_of_token_closing hclose)
  have hcalm := Phase.calm_of_opens h.calm (by rw [hc]; decide)
  cases filling with
  | data value =>
    refine ⟨?_, ?_, ?_, hafter⟩
    · show Along (Placed t) none (((Cell.ofText .resolved value).reverse ++ done).reverse ++ after) none
      rw [List.reverse_append, List.reverse_reverse, List.append_assoc, along_append, along_append]
      refine ⟨hdone _, along_of_forall fun d hd b n => ?_, hbehind _⟩
      obtain ⟨x, _, rfl⟩ := List.mem_map.mp hd
      exact placed_of_noPlace rfl (by simp)
    · refine Phase.calm_data hcalm (Cell.ofText .resolved value) (fun d hd => ?_) _
      obtain ⟨x, _, rfl⟩ := List.mem_map.mp hd
      rfl
    · intro d hd
      rcases List.mem_append.mp hd with hd | hd
      · obtain ⟨x, _, rfl⟩ := List.mem_map.mp (List.mem_reverse.mp hd)
        exact .inr rfl
      · exact h.marks d hd
  | template cells =>
    obtain ⟨p, hp, _, rfl⟩ := fieldFiller_template hfill
    have hcells := along_fallbackCells (along_append.mp hrest).1 hp hinterior hover
    refine ⟨?_, hcalm _, h.marks, ?_⟩
    · show Along (Placed t) none (done.reverse ++ (p.fallbackCells interior ++ after)) none
      rw [along_append, along_append]
      exact ⟨hdone _, hcells _ _, hbehind _⟩
    · intro d hd
      rcases List.mem_append.mp hd with hd | hd
      · exact Placeholder.mark_of_mem_fallbackCells hd
      · exact hafter d hd

theorem places_fallbackCells {p : Placeholder} {interior : List Cell}
    (hp : Placeholder.ofInterior (Cell.text interior) = .ok p) :
    (places (p.fallbackCells interior)).Sublist (places interior) := by
  obtain ⟨front, back, hsplit, _, hcells⟩ := Placeholder.fallbackCells_of_strip hp
  have hback : places (p.fallbackCells interior) = places back := by
    rw [hcells, places, List.filterMap_map]
    rfl
  obtain ⟨lead, trail, hinterior, _, _⟩ := Cell.strip_eq interior
  rw [hback, hinterior, hsplit]
  simp only [places_append]
  exact (((List.sublist_append_right _ _).trans (List.sublist_append_right _ _)).trans
    (List.sublist_append_left _ _))

/-- A step gives no place to a cell that had none, and keeps the places in order. -/
theorem places_resolve {s : Splitter} {record : Record} {filled : Nat} {done rest : List Cell}
    {trace : List Happening} {f : Front}
    (hr : resolveBrace .fields (fieldFiller s record) filled done c rest = (trace, .ok f)) :
    (places f.cells).Sublist (places (done.reverse ++ c :: rest)) := by
  obtain ⟨m, _, _, _, rfl⟩ | ⟨_, interior, after, filling, hscan, hfill, rfl⟩ := resolveBrace_cases hr
  · simp [Front.cells, places, guardCell]
  obtain ⟨close, _, rfl⟩ := Brace.scan_closed _ _ _ _ _ _ hscan
  have hafter : (places after).Sublist (places (close :: after)) :=
    (List.sublist_cons_self close after).filterMap _
  cases filling with
  | data value =>
    have hdata : places ((Cell.ofText .resolved value).reverse ++ done).reverse
        = places done.reverse := by
      rw [List.reverse_append, List.reverse_reverse, places_append, places_ofText, List.append_nil]
    show (places (((Cell.ofText .resolved value).reverse ++ done).reverse ++ after)).Sublist _
    rw [places_append, places_append, hdata]
    refine (List.Sublist.refl _).append (hafter.trans ?_)
    exact ((List.sublist_append_right _ _).trans (List.sublist_cons_self _ _)).filterMap _
  | template cells =>
    obtain ⟨p, hp, _, rfl⟩ := fieldFiller_template hfill
    show (places (done.reverse ++ (p.fallbackCells interior ++ after))).Sublist _
    rw [places_append, places_append, places_append]
    refine (List.Sublist.refl _).append (((places_fallbackCells hp).append hafter).trans ?_)
    rw [← places_append]
    exact (List.sublist_cons_self _ _).filterMap _

/-- **The first sweep keeps every cell where it belongs.** -/
theorem Sound.placed_sweep {done rest : List Cell} (h : Sound t done rest) (s : Splitter)
    (record : Record) (spare : List Mark) (filled : Nat) :
    Along (Placed t) none (sweep .fields (fieldFiller s record) spare filled done rest).state none ∧
      (places (sweep .fields (fieldFiller s record) spare filled done rest).state).Sublist
        (places (done.reverse ++ rest)) := by
  fun_induction sweep .fields (fieldFiller s record) spare filled done rest with
  | case1 filled done =>
    have hplaced := h.placed
    rw [List.append_nil] at hplaced ⊢
    exact ⟨hplaced, List.Sublist.refl _⟩
  | case2 => exact ⟨h.placed, List.Sublist.refl _⟩
  | case3 filled done c rest hl ih =>
    have hcells : (c :: done).reverse ++ rest = done.reverse ++ c :: rest := by simp
    rw [hcells] at ih
    refine ih ⟨hcells ▸ h.placed, along_reverse_cons.mpr ⟨h.calm, ?_⟩, ?_, ?_⟩
    · show (Phase.fields.live done.head? c rest.head? && Phase.ofTemplate c) = false
      rw [Phase.live, hl, Bool.false_and]
    · exact List.forall_mem_cons.mpr ⟨.inl (h.unread c List.mem_cons_self), h.marks⟩
    · exact fun d hd => h.unread d (List.mem_cons_of_mem c hd)
  | case4 => exact ⟨h.placed, List.Sublist.refl _⟩
  | case5 filled done c rest hl trace f hr _ ih =>
    obtain ⟨hc, _⟩ := Phase.isLive_eq_true hl
    obtain ⟨hplaced, hsub⟩ := ih (h.resolve hc hr)
    exact ⟨hplaced, hsub.trans (places_resolve hr)⟩

/-- A template is where it belongs before anything is done. -/
theorem sound_ofTemplate (t : Text) : Sound t [] (Cell.ofTemplate t) where
  placed := along_ofTemplate t
  calm := trivial
  marks _ hd := absurd hd List.not_mem_nil
  unread := Cell.trusted_ofTemplate

/-! ## 3. Guards -/

theorem places_guarded (phase : Phase) : ∀ (cells : List Cell) (before : Option Cell),
    places (guarded phase before cells) = places cells
  | [], _ => rfl
  | c :: rest, before => by
    have ih := places_guarded phase rest (some c)
    rw [guarded]
    split
    · show places ([guardCell] ++ ([c] ++ guarded phase (some c) rest)) = places ([c] ++ rest)
      rw [places_append, places_append, places_append, ih]
      rfl
    · show places ([c] ++ guarded phase (some c) rest) = places ([c] ++ rest)
      rw [places_append, places_append, ih]

/-- **Guards part nothing that belongs together.** -/
theorem along_guarded {phase : Phase} : ∀ {cells : List Cell} {before : Option Cell},
    phase.hasLive Phase.ofTemplate before cells = false → Along (Placed t) before cells none →
      Along (Placed t) before (guarded phase before cells) none
  | [], _, _, _ => trivial
  | c :: rest, before, hlive, h => by
    obtain ⟨hc, hrest⟩ := Bool.or_eq_false_iff.mp hlive
    have ih := along_guarded hrest h.2
    rw [guarded]
    split
    · rename_i hl
      rw [hl, Bool.true_and] at hc
      have hmark : c.mark ≠ some .trusted := of_decide_eq_false hc
      have hplace : c.origin = none := h.1.honest.noPlace hmark
      exact ⟨placed_of_noPlace rfl (by decide), placed_of_noPlace hplace hmark, ih⟩
    · refine ⟨?_, ih⟩
      cases rest with
      | nil => exact h.1
      | cons r rest =>
        obtain ⟨hr, _⟩ := Bool.or_eq_false_iff.mp hrest
        rw [guarded]
        split
        · rename_i hl
          rw [hl, Bool.true_and] at hr
          -- a brace of data does not stand behind an unescaped brace of the template
          refine h.1.of_next fun hchar hm hu => ?_
          obtain ⟨i, hi⟩ := h.1.honest.place_of_trusted hm
          have hri := h.1.ahead i hi hchar hu r rfl
          exact of_decide_eq_false hr (h.2.1.honest.trusted hri)
        · exact h.1

/-! ## 4. The sweep over commands -/

/-- The place of a template at which a live command brace stands is one where a command may open. -/
theorem Placed.commandPlace (h : Placed t before c next) {n : Cell} (hn : Honest t n)
    (hbefore : ∀ b ∈ before, Honest t b) (hnext : next = some n) {i : Nat} (hi : c.origin = some i)
    (hl : Phase.commands.isLive before c next = .ok true) :
    c = .at i '{' ∧ n = .at (i + 1) '!' ∧ i ∈ commandPlaces t := by
  obtain ⟨hchar, hu, d, hd, ho⟩ := Phase.isLive_eq_true hl
  rw [hnext] at hd
  cases hd
  have hbang : n.char = ('!' : CodePoint) := of_decide_eq_true ho
  have hni := h.ahead i hi hchar hu n hnext
  obtain ⟨hc, hti⟩ := h.honest.of_place hi
  obtain ⟨hn', htn⟩ := hn.of_place hni
  rw [hchar] at hc hti
  rw [hbang] at hn' htn
  refine ⟨hc, hn', List.mem_filter.mpr ⟨?_, ?_⟩⟩
  · obtain ⟨hlt, _⟩ := List.getElem?_eq_some_iff.mp hti
    exact List.mem_range.mpr hlt
  · rw [opensCommandAt, hti, htn]
    cases i with
    | zero => rfl
    | succ j =>
      have hslash : t[j]? ≠ some ('\\' : CodePoint) := by
        intro hj
        obtain ⟨b, rfl, hbj⟩ := h.behind j hi hj
        obtain ⟨hb, htj⟩ := (hbefore b rfl).of_place hbj
        rw [Option.some.inj (htj.symm.trans hj)] at hb
        rw [hb] at hu
        cases hu
      simp [hslash]

/-- One step runs at most one command, for the brace it resolves. -/
theorem calls_resolveBrace (runner : Runner) (filled : Nat) (done : List Cell) (c : Cell)
    (rest : List Cell) :
    (resolveBrace .commands (commandFiller runner) filled done c rest).1.filterMap Happening.call?
        = [] ∨
      c.mark = some .trusted ∧ ∃ interior after,
        Brace.scan Cell.token 0 false rest = .closed interior after ∧
        (resolveBrace .commands (commandFiller runner) filled done c rest).1.filterMap Happening.call?
          = [(c, interior.head?)] := by
  unfold resolveBrace
  split
  · exact .inl rfl
  · rename_i hm
    split
    · exact .inl rfl
    · exact .inl rfl
    · rename_i interior after hs
      refine .inr ⟨hm, interior, after, hs, ?_⟩
      simp only [commandFiller]
      cases runner filled (commandOf interior) with
      | error e => rfl
      | ok output => rfl
  · exact .inl rfl

/-- What a command is run for: a brace at a place of the template, and the exclamation mark behind. -/
def callAt (place : Nat) : Cell × Option Cell := (.at place '{', some (.at (place + 1) '!'))

/-- The calls of one step are for the place of its brace, or there are none. -/
theorem calls_of_live (runner : Runner) (filled : Nat) {done rest : List Cell}
    (hdone : ∀ d ∈ done, Honest t d) (h : Along (Placed t) done.head? (c :: rest) none)
    (hl : Phase.commands.isLive done.head? c rest.head? = .ok true) :
    ∃ here : List Nat, here.Sublist (places [c]) ∧ (∀ p ∈ here, p ∈ commandPlaces t) ∧
      (resolveBrace .commands (commandFiller runner) filled done c rest).1.filterMap Happening.call?
        = here.map callAt := by
  rcases calls_resolveBrace runner filled done c rest with hcalls | ⟨hm, interior, after, hs, hcalls⟩
  · exact ⟨[], List.nil_sublist _, fun p hp => absurd hp List.not_mem_nil, hcalls⟩
  obtain ⟨hchar, _, d, hd, ho⟩ := Phase.isLive_eq_true hl
  obtain ⟨close, hclose, hsplit⟩ := Brace.scan_closed _ _ _ _ _ _ hs
  -- the exclamation mark is in the interior
  have hhead : interior.head? = some d := by
    cases interior with
    | nil =>
      rw [hsplit] at hd
      cases hd
      rw [Cell.char_of_token_closing hclose] at ho
      exact absurd ho (by decide)
    | cons x interior =>
      rw [hsplit] at hd
      exact hd
  obtain ⟨i, hi⟩ := h.1.honest.place_of_trusted hm
  have hnd : Honest t d := by
    cases rest with
    | nil => cases hd
    | cons x rest =>
      cases hd
      exact h.2.1.honest
  have hplaced := h.1
  rw [Option.or_none] at hplaced
  obtain ⟨hc, hn, hmem⟩ := hplaced.commandPlace hnd
    (fun b hb => hdone b (List.mem_of_mem_head? hb)) hd hi hl
  refine ⟨[i], ?_, ?_, ?_⟩
  · rw [places, List.filterMap_cons, hi]
    exact List.Sublist.refl _
  · intro p hp
    rw [List.mem_singleton.mp hp]
    exact hmem
  · rw [hcalls, hhead, hn, hc]
    rfl

/-- A step over commands leaves cells that are where they belong. -/
theorem placed_resolve {runner : Runner} {filled : Nat} {done rest : List Cell}
    {trace : List Happening} {f : Front} (hdone : ∀ d ∈ done, Honest t d)
    (h : Along (Placed t) done.head? (c :: rest) none)
    (hr : resolveBrace .commands (commandFiller runner) filled done c rest = (trace, .ok f)) :
    (∀ d ∈ f.done, Honest t d) ∧ Along (Placed t) f.done.head? f.rest none ∧
      (places f.rest).Sublist (places rest) := by
  obtain ⟨m, _, _, _, rfl⟩ | ⟨_, interior, after, filling, hscan, hfill, rfl⟩ := resolveBrace_cases hr
  · have hguard : Honest t guardCell := fun hm => by cases hm
    exact ⟨List.forall_mem_cons.mpr ⟨h.1.honest, List.forall_mem_cons.mpr ⟨hguard, hdone⟩⟩, h.2,
      List.Sublist.refl _⟩
  obtain ⟨close, hclose, rfl⟩ := Brace.scan_closed _ _ _ _ _ _ hscan
  cases filling with
  | data value =>
    refine ⟨fun d hd => ?_, along_after h.2 (Cell.char_of_token_closing hclose) _, ?_⟩
    · rcases List.mem_append.mp hd with hd | hd
      · obtain ⟨x, _, rfl⟩ := List.mem_map.mp (List.mem_reverse.mp hd)
        exact fun hm => by cases hm
      · exact hdone d hd
    · exact ((List.sublist_cons_self close after).trans (List.sublist_append_right _ _)).filterMap _
  | template cells =>
    obtain ⟨_, _, _, hf⟩ := commandFiller_cases hfill
    cases hf

/-- **The sweep over commands runs commands for places of the template**, each for another one of
    those it had left to read, in order. -/
theorem calls_sweep (runner : Runner) (spare : List Mark) (filled : Nat) (done rest : List Cell)
    (hdone : ∀ d ∈ done, Honest t d) (h : Along (Placed t) done.head? rest none) :
    ∃ used : List Nat, used.Sublist (places rest) ∧ (∀ p ∈ used, p ∈ commandPlaces t) ∧
      (sweep .commands (commandFiller runner) spare filled done rest).trace.filterMap Happening.call?
        = used.map callAt := by
  fun_induction sweep .commands (commandFiller runner) spare filled done rest with
  | case1 => exact ⟨[], List.nil_sublist _, fun p hp => absurd hp List.not_mem_nil, rfl⟩
  | case2 => exact ⟨[], List.nil_sublist _, fun p hp => absurd hp List.not_mem_nil, rfl⟩
  | case3 filled done c rest hl ih =>
    obtain ⟨used, hsub, hall, hcalls⟩ := ih (List.forall_mem_cons.mpr ⟨h.1.honest, hdone⟩) h.2
    exact ⟨used, hsub.trans ((List.sublist_cons_self c rest).filterMap _), hall, hcalls⟩
  | case4 filled done c rest hl trace e hr =>
    obtain ⟨here, hsub, hall, hcalls⟩ := calls_of_live runner filled hdone h hl
    rw [hr] at hcalls
    refine ⟨here, hsub.trans ?_, hall, hcalls⟩
    exact ((List.nil_sublist rest).cons_cons c).filterMap _
  | case5 filled done c rest hl trace f hr _ ih =>
    obtain ⟨here, hsub, hall, hcalls⟩ := calls_of_live runner filled hdone h hl
    rw [hr] at hcalls
    obtain ⟨hd, hplaced, hleft⟩ := placed_resolve hdone h hr
    obtain ⟨used, hsub', hall', hcalls'⟩ := ih hd hplaced
    refine ⟨here ++ used, ?_, ?_, ?_⟩
    · show List.Sublist _ (places ([c] ++ rest))
      rw [places_append]
      exact hsub.append (hsub'.trans hleft)
    · intro p hp
      exact (List.mem_append.mp hp).elim (hall p) (hall' p)
    · rw [Progress.trace_after, List.filterMap_append, List.filterMap_append, hcalls', List.map_append,
        ← hcalls]
      show _ ++ [] ++ _ = _
      rw [List.append_nil]
      rfl

/-! ## 5. The whole expansion -/

/-- **The phase of fields leaves every cell where it belongs.** -/
theorem placed_settle {s : Splitter} {record : Record}
    (h : (settle (fieldFiller s record) [] (Cell.ofTemplate t)).error = none) :
    Along (Placed t) none (settle (fieldFiller s record) [] (Cell.ofTemplate t)).state none ∧
      (places (settle (fieldFiller s record) [] (Cell.ofTemplate t)).state).Sublist
        (List.range t.length) := by
  have hfirst : (sweep .fields (fieldFiller s record) [] 0 [] (Cell.ofTemplate t)).error = none := by
    cases he : (sweep .fields (fieldFiller s record) [] 0 [] (Cell.ofTemplate t)).error with
    | none => rfl
    | some e =>
      rw [settle_of_error he, he] at h
      cases h
  obtain ⟨hplaced, hsub⟩ := (sound_ofTemplate t).placed_sweep s record [] 0
  obtain ⟨hstate, _⟩ := settle_of_ok [] (fieldFiller_keeps_mark s record)
    (Cell.allMarked_ofTemplate t) hfirst
  rw [hstate, places_guarded]
  rw [List.reverse_nil, List.nil_append, places_ofTemplate] at hsub
  exact ⟨along_guarded (hasLive_sweep_template _ _ 0 [] _ trivial hfirst) hplaced, hsub⟩

/-- The calls of an expansion are those of its sweep over commands, if it comes to one. -/
theorem calls_expand (s : Splitter) (runner : Runner) (template : Text) (record : Record) :
    (expand s runner template record).calls = [] ∨
      (settle (fieldFiller s record) [] (Cell.ofTemplate template)).error = none ∧
      (expand s runner template record).calls
        = (sweep .commands (commandFiller runner) [] 0 []
            (settle (fieldFiller s record) [] (Cell.ofTemplate template)).state).trace.filterMap
          Happening.call? := by
  have hnone := calls_settle s record [] (Cell.ofTemplate template)
  rw [expand_eq]
  simp only
  split
  · exact .inl hnone
  · rename_i he
    refine .inr ⟨he, ?_⟩
    split
    all_goals
      show List.filterMap Happening.call? (_ ++ _) = _
      rw [List.filterMap_append, hnone, List.nil_append]

/-- **No data runs a command.** Whatever a record and the outputs of commands hold, the commands of
    an expansion are run for opening braces of the template with an exclamation mark of the template
    behind each, for places of its own each, from left to right. So there are no more of them than the
    template has places for. -/
theorem calls_of_template (s : Splitter) (runner : Runner) (template : Text) (record : Record) :
    ∃ used : List Nat, used.Sublist (commandPlaces template) ∧
      (expand s runner template record).calls
        = used.map (fun p => (.at p '{', some (.at (p + 1) '!'))) ∧
      (expand s runner template record).commands.length ≤ (commandPlaces template).length := by
  have hused : ∃ used : List Nat, used.Sublist (commandPlaces template) ∧
      (expand s runner template record).calls = used.map callAt := by
    rcases calls_expand s runner template record with hcalls | ⟨he, hcalls⟩
    · exact ⟨[], List.nil_sublist _, hcalls⟩
    obtain ⟨hplaced, hsub⟩ := placed_settle he
    obtain ⟨used, hused, hall, hmap⟩ := calls_sweep runner [] 0 [] _
      (fun d hd => absurd hd List.not_mem_nil) hplaced
    refine ⟨used, ?_, hcalls.trans hmap⟩
    have hkept := (hused.trans hsub).filter (opensCommandAt template)
    rwa [List.filter_eq_self.mpr fun p hp => (List.mem_filter.mp (hall p hp)).2] at hkept
  obtain ⟨used, hsub, hcalls⟩ := hused
  refine ⟨used, hsub, hcalls, ?_⟩
  rw [Expansion.length_commands, hcalls, List.length_map]
  exact hsub.length_le

end GraphFeed
