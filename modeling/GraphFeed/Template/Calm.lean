import GraphFeed.Template.Neighbours
import GraphFeed.Template.Sweep

/-!
# Calm cells

Cells are calm for a kind of placeholder if no live brace of that kind is among them, and calm for
a class of cells if no live brace of that class is (`Phase.hasLive`). A sweep over fields comes to
rest in two steps:

* `hasLive_sweep_template`: it leaves no live brace of the template;
* `hasLive_sweep`: where there was none of the template before, it leaves no live brace at all.

So `Phase.unrest`, which counts how far cells are from being calm, goes down with every sweep that
meets a brace (`unrest_sweep_lt`), and sweeping can be repeated until nothing happens any more.
-/

namespace GraphFeed

open Buffer (Cell)

namespace Phase

/-! ## 1. Cells without live braces -/

/-- Whether a cell is known to be a live brace of a kind. -/
def live (phase : Phase) (before : Option Cell) (c : Cell) (next : Option Cell) : Bool :=
  match phase.isLive before c next with
  | .ok b => b
  | .error _ => false

/-- Whether a live brace of a class is among cells, given the cell before them. -/
def hasLive (phase : Phase) (q : Cell → Bool) (before : Option Cell) : List Cell → Bool
  | [] => false
  | c :: rest => (phase.live before c rest.head? && q c) || phase.hasLive q (some c) rest

/-- A class of cells: all of them. -/
def anyCell : Cell → Bool := fun _ => true

/-- A class of cells: those of the template. -/
def ofTemplate : Cell → Bool := fun c => c.mark = some .trusted

/-- A cell is no live brace of a class. -/
def Calm (phase : Phase) (q : Cell → Bool) (before : Option Cell) (c : Cell) (next : Option Cell) :
    Prop := (phase.live before c next && q c) = false

theorem hasLive_eq_false_iff {phase : Phase} {q : Cell → Bool} :
    ∀ {cells : List Cell} {before : Option Cell},
      phase.hasLive q before cells = false ↔ Along (phase.Calm q) before cells none
  | [], _ => by simp [hasLive]
  | c :: cells, before => by
    rw [hasLive, Bool.or_eq_false_iff, hasLive_eq_false_iff, along_cons, Option.or_none]
    exact Iff.rfl

/-- A live brace among cells that are calm for the template is not of the template. -/
theorem mark_ne_trusted {phase : Phase} {before : Option Cell} {c : Cell} {rest : List Cell}
    (h : phase.hasLive Phase.ofTemplate before (c :: rest) = false)
    (hl : phase.isLive before c rest.head? = .ok true) : c.mark ≠ some .trusted := by
  intro hm
  have hlive := (Bool.or_eq_false_iff.mp h).1
  simp [live, hl, ofTemplate, hm] at hlive

/-! ## 2. What liveness depends on -/

theorem live_eq_false_of_ne {phase : Phase} {before next : Option Cell} {c : Cell}
    (h : c.char ≠ ('{' : CodePoint)) : phase.live before c next = false := by
  rw [live, isLive_of_ne h]

/-- Of the next cell it matters only which kind it makes the brace. -/
theorem live_congr {phase : Phase} {before : Option Cell} {c x y : Cell}
    (h : phase.opens x.char = phase.opens y.char) :
    phase.live before c (some x) = phase.live before c (some y) := by
  simp only [live, isLive, h]

/-- A brace that is not live although a cell of its kind follows is not live before any cell. -/
theorem live_eq_false_of_opens {phase : Phase} {before : Option Cell} {c x : Cell}
    (ho : phase.opens x.char = true) (h : phase.live before c (some x) = false)
    (next : Option Cell) : phase.live before c next = false := by
  by_cases hc : c.char = ('{' : CodePoint)
  · cases next with
    | none => simp [live, isLive, hc]
    | some y =>
      simp only [live, isLive, hc, ho, Bool.and_true] at h ⊢
      cases hu : unescapedAfter before with
      | error e => rfl
      | ok u =>
        rw [hu] at h
        have hu' : u = false := h
        subst hu'
        rfl
  · exact live_eq_false_of_ne hc

/-- A guarded brace is not live. -/
theorem live_guarded (phase : Phase) (c : Cell) (next : Option Cell) :
    phase.live (some guardCell) c next = false := by
  by_cases hc : c.char = ('{' : CodePoint)
  · cases next with
    | none => simp [live, isLive, hc]
    | some y =>
      have hg : unescapedAfter (some guardCell) = .ok false := rfl
      simp [live, isLive, hc, hg]
  · exact live_eq_false_of_ne hc

theorem unescapedAfter_of_ne {before : Option Cell} (h : ∀ b ∈ before, b.char ≠ ('\\' : CodePoint)) :
    unescapedAfter before = .ok true := by
  cases before with
  | none => rfl
  | some b => rw [unescapedAfter, if_pos (h b rfl)]

/-- Behind what is no backslash, a brace is live if what follows makes it one of the kind. -/
theorem isLive_unescaped {phase : Phase} {before : Option Cell} {c d : Cell}
    (h : ∀ b ∈ before, b.char ≠ ('\\' : CodePoint)) (hc : c.char = ('{' : CodePoint)) :
    phase.isLive before c (some d) = .ok (phase.opens d.char) := by
  simp [isLive, hc, unescapedAfter_of_ne h]

/-- A live brace is a brace, and the cell behind it makes it one of its kind. -/
theorem isLive_eq_true {phase : Phase} {before next : Option Cell} {c : Cell}
    (h : phase.isLive before c next = .ok true) :
    c.char = ('{' : CodePoint) ∧ unescapedAfter before = .ok true ∧
      ∃ d, next = some d ∧ phase.opens d.char = true := by
  unfold isLive at h
  split at h
  · cases h
  · rename_i hc
    split at h
    · cases h
    · rename_i d
      cases hu : unescapedAfter before with
      | error e => rw [hu] at h; cases h
      | ok u =>
        rw [hu] at h
        have hand : (u && phase.opens d.char) = true := Except.ok.inj h
        rw [Bool.and_eq_true] at hand
        exact ⟨Classical.not_not.mp hc, by rw [hand.1], d, rfl, hand.2⟩

/-! ## 3. The cells passed -/

variable {phase : Phase} {q : Cell → Bool} {x : Cell} {done : List Cell}

/-- Cells that are calm before a cell of their kind are calm before any cell. -/
theorem calm_of_opens (h : Along (phase.Calm q) none done.reverse (some x))
    (ho : phase.opens x.char = true) (next : Option Cell) :
    Along (phase.Calm q) none done.reverse next := by
  refine h.of_next fun b c hc => ?_
  unfold Calm at hc ⊢
  cases hq : q c with
  | false => exact Bool.and_false _
  | true =>
    rw [hq, Bool.and_true] at hc
    rw [live_eq_false_of_opens ho hc next]
    rfl

/-- Cells that are not of the class do not disturb. -/
theorem calm_data (h : ∀ next, Along (phase.Calm q) none done.reverse next) (new : List Cell)
    (hnew : ∀ c ∈ new, q c = false) (next : Option Cell) :
    Along (phase.Calm q) none (new.reverse ++ done).reverse next := by
  rw [List.reverse_append, List.reverse_reverse, along_append]
  refine ⟨h _, along_of_forall fun c hc b n => ?_⟩
  show (phase.live b c n && q c) = false
  rw [hnew c hc, Bool.and_false]

/-- A guarded brace stands calmly behind calm cells. -/
theorem calm_guard {next : Option Cell} (hx : x.char = ('{' : CodePoint))
    (h : Along (fields.Calm q) none done.reverse (some x)) :
    Along (fields.Calm q) none (x :: guardCell :: done).reverse next := by
  refine along_reverse_cons.mpr ⟨along_reverse_cons.mpr ⟨?_, ?_⟩, ?_⟩
  · refine h.of_next fun b c hc => ?_
    unfold Calm at hc ⊢
    rwa [live_congr (y := x) (by rw [hx]; decide)]
  · show (fields.live done.head? guardCell (some x) && q guardCell) = false
    rw [live_eq_false_of_ne (by decide), Bool.false_and]
  · show (fields.live (some guardCell) x next && q x) = false
    rw [live_guarded, Bool.false_and]

end Phase

/-! ## 4. Sweeps -/

section Sweeps

variable (filler : Filler) (spare : List Mark)

/-- Where no brace is live, a sweep meets none. -/
theorem trace_sweep_eq_nil (phase : Phase) (filled : Nat) (done rest : List Cell)
    (h : phase.hasLive Phase.anyCell done.head? rest = false) :
    (sweep phase filler spare filled done rest).trace = [] := by
  fun_induction sweep phase filler spare filled done rest with
  | case1 => rfl
  | case2 => rfl
  | case3 filled done c rest hl ih =>
    exact ih (Bool.or_eq_false_iff.mp h).2
  | case4 filled done c rest hl =>
    have hc := (Bool.or_eq_false_iff.mp h).1
    simp [Phase.live, hl, Phase.anyCell] at hc
  | case5 filled done c rest hl =>
    have hc := (Bool.or_eq_false_iff.mp h).1
    simp [Phase.live, hl, Phase.anyCell] at hc

/-- **A sweep over fields leaves no live brace of the template.** -/
theorem hasLive_sweep_template (filled : Nat) (done rest : List Cell)
    (hdone : Along (Phase.fields.Calm Phase.ofTemplate) none done.reverse rest.head?)
    (h : (sweep .fields filler spare filled done rest).error = none) :
    Phase.fields.hasLive Phase.ofTemplate none (sweep .fields filler spare filled done rest).state
      = false := by
  fun_induction sweep .fields filler spare filled done rest with
  | case1 filled done => exact Phase.hasLive_eq_false_iff.mpr hdone
  | case2 => cases h
  | case3 filled done c rest hl ih =>
    refine ih (along_reverse_cons.mpr ⟨hdone, ?_⟩) h
    simp [Phase.Calm, Phase.live, hl]
  | case4 => cases h
  | case5 filled done c rest hl trace f hr _ ih =>
    obtain ⟨hc, _⟩ := Phase.isLive_eq_true hl
    have hbefore := Phase.calm_of_opens hdone (by rw [hc]; decide)
    refine ih ?_ h
    obtain ⟨m, hm, hne, _, rfl⟩ | ⟨_, interior, after, filling, _, _, rfl⟩ := resolveBrace_cases hr
    · exact Phase.calm_guard hc hdone
    · cases filling with
      | data value =>
        refine Phase.calm_data hbefore (Cell.ofText .resolved value) (fun d hd => ?_) _
        obtain ⟨x, _, rfl⟩ := List.mem_map.mp hd
        rfl
      | template cells => exact hbefore _

/-- **Where no live brace is of the template, a sweep over fields leaves no live brace.** -/
theorem hasLive_sweep (filled : Nat) (done rest : List Cell)
    (hdone : Along (Phase.fields.Calm Phase.anyCell) none done.reverse rest.head?)
    (hrest : Phase.fields.hasLive Phase.ofTemplate done.head? rest = false)
    (h : (sweep .fields filler spare filled done rest).error = none) :
    Phase.fields.hasLive Phase.anyCell none (sweep .fields filler spare filled done rest).state
      = false := by
  fun_induction sweep .fields filler spare filled done rest with
  | case1 filled done => exact Phase.hasLive_eq_false_iff.mpr hdone
  | case2 => cases h
  | case3 filled done c rest hl ih =>
    refine ih (along_reverse_cons.mpr ⟨hdone, ?_⟩) (Bool.or_eq_false_iff.mp hrest).2 h
    simp [Phase.Calm, Phase.live, hl]
  | case4 => cases h
  | case5 filled done c rest hl trace f hr _ ih =>
    have hmark := Phase.mark_ne_trusted hrest hl
    obtain ⟨_, hrest⟩ := Bool.or_eq_false_iff.mp hrest
    obtain ⟨hc, _⟩ := Phase.isLive_eq_true hl
    obtain ⟨m, hm, hne, _, rfl⟩ | ⟨hm, _⟩ := resolveBrace_cases hr
    · exact ih (Phase.calm_guard hc hdone) hrest h
    · exact absurd hm hmark

end Sweeps

/-! ## 5. Unrest -/

/-- How far cells are from being calm: 2 while a brace of the template is live, 1 while only braces
    of data are, and 0 in the end. -/
def Phase.unrest (phase : Phase) (cells : List Cell) : Nat :=
  (phase.hasLive Phase.anyCell none cells).toNat + (phase.hasLive Phase.ofTemplate none cells).toNat

/-- **A sweep over fields that meets a brace brings the cells nearer to rest.** -/
theorem unrest_sweep_lt {filler : Filler} {spare : List Mark} {cells : List Cell}
    (hok : (sweep .fields filler spare 0 [] cells).error = none)
    (hmet : (sweep .fields filler spare 0 [] cells).trace ≠ []) :
    Phase.fields.unrest (sweep .fields filler spare 0 [] cells).state < Phase.fields.unrest cells := by
  have hany : Phase.fields.hasLive Phase.anyCell none cells = true :=
    Bool.of_not_eq_false fun hn => hmet (trace_sweep_eq_nil filler spare .fields 0 [] cells hn)
  have htemplate := hasLive_sweep_template filler spare 0 [] cells trivial hok
  unfold Phase.unrest
  rw [hany, htemplate]
  cases hcells : Phase.fields.hasLive Phase.ofTemplate none cells with
  | true =>
    cases Phase.fields.hasLive Phase.anyCell none (sweep .fields filler spare 0 [] cells).state
    all_goals decide
  | false =>
    rw [hasLive_sweep filler spare 0 [] cells trivial hcells hok]
    decide

end GraphFeed
