import GraphFeed.Proofs.PhaseOrder

/-!
# Where the code points of a buffer come from

Beside a buffer runs a list of where its code points come from (`Traced`). Whatever edits the buffer
changes the list at the same place, and what comes from a record or from a command is entered there as
such. So it can be said of a buffer that its marks tell the truth (`Traced.Sound`).

The cells of a buffer know where they come from (`Traced.Holds`), and it is said of them what carries
from one edit to the next (`Faithful`):

* `Faithful.sound`: the buffer that such cells are of is sound;
* `Faithful.replace`: a placeholder may be replaced, for it begins with a brace of the template, and
  before that stands no guard;
* `Faithful.guard`: a live brace of data may get a guard, for it has none.
-/

namespace GraphFeed

open Buffer (Cell)

/-! ## 1. Buffers and where their code points come from -/

/-- Where a code point of a buffer comes from. -/
inductive Provenance
  /-- It was taken from this place of the template. -/
  | template (place : Nat)
  /-- It was taken from a record, or from the output of a command. -/
  | data
  /-- It was put in as a guard. -/
  | guard
deriving DecidableEq

/-- The mark that tells where a code point comes from. -/
def Provenance.mark : Provenance → Mark
  | .template _ => .trusted
  | .data => .resolved
  | .guard => .guarding

/-- A buffer, and where each of its code points comes from. -/
structure Traced where
  buffer : Buffer
  provenance : List Provenance

namespace Traced

/-- The buffer of a template and nothing else. -/
def ofTemplate (t : Text) : Traced := ⟨.ofTemplate t, (List.range t.length).map .template⟩

/-- Puts a guard in front of a position. -/
def guard (x : Traced) (index : Nat) : Traced :=
  ⟨x.buffer.insertGuard index, Span.splice x.provenance index index [.guard]⟩

/-- Puts data in the place of a span. -/
def fill (x : Traced) (start stop : Nat) (value : Text) : Traced :=
  ⟨x.buffer.splice start stop value .resolved,
    Span.splice x.provenance start stop (List.replicate value.length .data)⟩

/-- Puts a part of a span in its place, as text of the template; it stands at `first`. -/
def fallBack (x : Traced) (start stop first : Nat) (fallback : Text) : Traced :=
  ⟨x.buffer.splice start stop fallback .trusted,
    Span.splice x.provenance start stop ((x.provenance.drop first).take fallback.length)⟩

end Traced

/-- The text of a buffer that is marked as of the template. -/
def Buffer.trustedText (b : Buffer) : Text :=
  ((b.text.zip b.marks).filter fun p => p.2 = .trusted).map (·.1)

/-- What is said of a buffer in the course of expanding a template. -/
structure Traced.Sound (t : Text) (x : Traced) : Prop where
  /-- Text and marks are of one length. -/
  aligned : x.buffer.Aligned
  /-- Every guard is a backslash, and directly behind it is an opening brace of data. -/
  guards : ∀ i : Nat, x.buffer.marks[i]? = some .guarding →
    x.buffer.text[i]? = some ('\\' : CodePoint) ∧ x.buffer.text[i + 1]? = some ('{' : CodePoint) ∧
      x.buffer.marks[i + 1]? = some .resolved
  /-- What is marked as of the template is a part of the template, in its order. -/
  trusted : x.buffer.trustedText.Sublist t
  /-- Every mark tells where its code point comes from; in particular, data is marked as data. -/
  marks : x.buffer.marks = x.provenance.map Provenance.mark

/-! ## 2. Cells of a state -/

/-- Where a cell comes from, as its place and its mark tell. -/
def Buffer.Cell.provenance (c : Cell) : Provenance :=
  match c.origin with
  | some place => .template place
  | none => if c.mark = some .guarding then .guard else .data

/-- The cells are those of a state. -/
structure Traced.Holds (x : Traced) (cells : List Cell) : Prop where
  text : x.buffer.text = Cell.text cells
  marks : x.buffer.marks.map some = cells.map (·.mark)
  provenance : x.provenance = cells.map Cell.provenance

theorem Buffer.text_splice {b : Buffer} {front span back : Text} (h : b.text = front ++ span ++ back)
    (replacement : Text) (mark : Mark) :
    (b.splice (front.length : Nat) (front.length + span.length : Nat) replacement mark).text
      = front ++ replacement ++ back := by
  have hlength : b.letters.length = front.length + span.length + back.length := by
    have := congrArg List.length h
    rwa [text, List.length_map, List.length_append, List.length_append] at this
  have htext : b.letters.map Letter.char = front ++ span ++ back := h
  simp only [text, splice, List.map_append, List.map_map]
  rw [Span.slice_take (by omega), Span.slice_drop (by omega), List.map_take, List.map_drop, htext,
    List.append_assoc front span back, List.take_left, ← List.append_assoc, ← List.length_append,
    List.drop_left]
  exact congrArg (front ++ · ++ back) (List.map_id' replacement)

namespace Traced.Holds

variable {x : Traced} {front span back : List Cell}

/-- Replacing a span of cells is a splice of text, marks and provenance. -/
theorem splice (h : x.Holds (front ++ span ++ back)) {new : List Cell} {mark : Mark}
    (hmark : ∀ c ∈ new, c.mark = some mark) {provenance : List Provenance}
    (hnew : new.map Cell.provenance = provenance) :
    Holds ⟨x.buffer.splice (front.length : Nat) (front.length + span.length : Nat) (Cell.text new) mark,
        Span.splice x.provenance (front.length : Nat) (front.length + span.length : Nat) provenance⟩
      (front ++ new ++ back) where
  text := by
    have htext := h.text
    rw [Cell.text_append, Cell.text_append] at htext
    have hspliced := Buffer.text_splice htext (Cell.text new) mark
    rw [Cell.length_text, Cell.length_text] at hspliced
    rw [hspliced, Cell.text_append, Cell.text_append]
  marks := by
    have hmarks := h.marks
    rw [List.map_append, List.map_append] at hmarks
    have hnew := List.map_eq_replicate_iff.mpr hmark
    have hspliced := Span.splice_append hmarks (new.map (·.mark))
    rw [List.length_map, List.length_map, hnew] at hspliced
    rw [Buffer.splice, Span.map_splice, List.map_replicate, Cell.length_text, hspliced, List.map_append,
      List.map_append, hnew]
  provenance := by
    have hprov := h.provenance
    rw [List.map_append, List.map_append] at hprov
    have hspliced := Span.splice_append hprov provenance
    rw [List.length_map, List.length_map] at hspliced
    rw [hspliced, List.map_append, List.map_append, hnew]

/-- A guard is a cell of its own. -/
theorem guard (h : x.Holds (front ++ back)) :
    (x.guard front.length).Holds (front ++ guardCell :: back) := by
  have hnone : x.Holds (front ++ [] ++ back) := by rwa [List.append_nil]
  have hguard : ∀ c ∈ [guardCell], c.mark = some .guarding := by
    intro c hc
    rw [List.mem_singleton.mp hc]
    rfl
  have hspliced := hnone.splice hguard rfl
  rwa [List.append_assoc, List.singleton_append] at hspliced

/-- Data is in cells of its own. -/
theorem fill (h : x.Holds (front ++ span ++ back)) (value : Text) :
    (x.fill front.length (front.length + span.length) value).Holds
      (front ++ Cell.ofText .resolved value ++ back) := by
  have hdata : ∀ c ∈ Cell.ofText .resolved value, c.mark = some .resolved ∧ c.provenance = .data := by
    intro c hc
    obtain ⟨d, _, rfl⟩ := List.mem_map.mp hc
    exact ⟨rfl, rfl⟩
  have hprov := List.map_eq_replicate_iff.mpr fun c hc => (hdata c hc).2
  rw [Cell.length_ofText] at hprov
  have hspliced := h.splice (fun c hc => (hdata c hc).1) hprov
  rwa [Cell.text_ofText] at hspliced

/-- A part of a span is found where it stands. -/
theorem drop_take_span {γ : Type} {items : List γ} {f : Cell → γ} {lead new tail : List Cell}
    (h : items = (front ++ (lead ++ new ++ tail) ++ back).map f) :
    (items.drop (front.length + lead.length)).take new.length = new.map f := by
  have hsplit : front ++ (lead ++ new ++ tail) ++ back = front ++ lead ++ (new ++ (tail ++ back)) := by
    simp only [List.append_assoc]
  rw [h, hsplit, ← List.length_append, ← List.map_drop, ← List.map_take, List.drop_left, List.take_left]

/-- A part of a span stays, with where it comes from. -/
theorem fallBack {lead new tail : List Cell} (h : x.Holds (front ++ (lead ++ new ++ tail) ++ back))
    (hmark : ∀ c ∈ new, c.mark = some .trusted) :
    (x.fallBack front.length (front.length + (lead ++ new ++ tail).length)
        (front.length + lead.length) (Cell.text new)).Holds (front ++ new ++ back) := by
  refine h.splice hmark ?_
  rw [Cell.length_text, drop_take_span h.provenance]

/-- A cell is in the text and in the marks of the state. -/
theorem getElem? {cells : List Cell} (h : x.Holds cells) {i : Nat} {c : Cell} {m : Mark}
    (hc : cells[i]? = some c) (hm : c.mark = some m) :
    x.buffer.text[i]? = some c.char ∧ x.buffer.marks[i]? = some m := by
  have hmark : (x.buffer.marks.map some)[i]? = some (some m) := by
    rw [h.marks, List.getElem?_map, hc, Option.map_some, hm]
  rw [List.getElem?_map, Option.map_eq_some_iff] at hmark
  obtain ⟨m', hm', he⟩ := hmark
  refine ⟨?_, hm'.trans he⟩
  rw [h.text, Cell.text, List.getElem?_map, hc, Option.map_some]

/-- The buffer of these cells is that of the state. -/
theorem ofCells {cells : List Cell} (h : x.Holds cells) :
    (Buffer.ofCells cells []).text = x.buffer.text ∧
      (Buffer.ofCells cells []).marks = x.buffer.marks := by
  refine ⟨by rw [Buffer.text_ofCells, h.text], ?_⟩
  have hmarks : cells.filterMap Cell.mark = (cells.map (·.mark)).filterMap id := by
    rw [List.filterMap_map]
    rfl
  rw [Buffer.ofCells, List.append_nil, hmarks, ← h.marks, List.filterMap_map]
  exact List.filterMap_some

/-- What is marked as of the template is in the cells that are. -/
theorem trustedText {cells : List Cell} (h : x.Holds cells) :
    x.buffer.trustedText = Cell.text (cells.filter fun c => c.mark = some .trusted) := by
  have hzip : (x.buffer.text.zip x.buffer.marks).map (Prod.map id some)
      = cells.map fun c => (c.char, c.mark) := by
    rw [← List.zip_map, h.marks, h.text, Cell.text, List.map_id, List.zip_map']
  have hchars := congrArg (fun pairs : List (CodePoint × Option Mark) =>
    (pairs.filter fun p => p.2 = some .trusted).map (·.1)) hzip
  simp only [List.filter_map, List.map_map, Function.comp_def, Prod.map_fst, Prod.map_snd, id,
    Option.some.injEq] at hchars
  exact hchars

end Traced.Holds

/-- A template is what it comes from. -/
theorem holds_ofTemplate (t : Text) : (Traced.ofTemplate t).Holds (Cell.ofTemplate t) where
  text := by rw [Traced.ofTemplate, Buffer.text_ofTemplate, Cell.text_ofTemplate]
  marks := by
    rw [Traced.ofTemplate, Buffer.ofTemplate, List.map_replicate, Cell.ofTemplate, List.map_map]
    exact (List.eq_replicate_iff.mpr ⟨by simp, fun m hm => by
      obtain ⟨d, _, rfl⟩ := List.mem_map.mp hm
      rfl⟩).symm
  provenance := by
    rw [Traced.ofTemplate, List.range_eq_range', ← List.zipIdx_map_snd 0 t, Cell.ofTemplate,
      List.map_map, List.map_map]
    rfl

/-! ## 3. What holds of the cells -/

/-- A guard is a backslash, and it stands before a brace of data. -/
def Guarding (_ : Option Cell) (c : Cell) (next : Option Cell) : Prop :=
  c.mark = some .guarding → c.char = ('\\' : CodePoint) ∧
    ∃ n, next = some n ∧ n.char = ('{' : CodePoint) ∧ n.mark = some .resolved

/-- What is said of the cells of a buffer between two edits. -/
structure Faithful (t : Text) (cells : List Cell) : Prop where
  fair : ∀ c ∈ cells, Fair t c
  /-- The places of the template that are left are in order. -/
  ordered : (places cells).Sublist (List.range t.length)
  guards : Along Guarding none cells none

variable {t : Text} {x : Traced} {cells front span back new done rest : List Cell} {c : Cell}

/-- What is no guard is said nothing of. -/
theorem guarding_of_ne {before next : Option Cell} (h : c.mark ≠ some .guarding) :
    Guarding before c next := fun hm => absurd hm h

/-- What is before does not matter. -/
theorem guards_behind {before before' next : Option Cell} (h : Along Guarding before cells next) :
    Along Guarding before' cells next := by
  cases cells with
  | nil => trivial
  | cons d cells => exact ⟨h.1, h.2⟩

/-- The cells of the template hold what stands at their places. -/
theorem text_trusted (h : ∀ c ∈ cells, Honest t c) :
    Cell.text (cells.filter fun c => c.mark = some .trusted) = (places cells).filterMap (t[·]?) := by
  induction cells with
  | nil => rfl
  | cons c cells ih =>
    obtain ⟨hc, hrest⟩ := List.forall_mem_cons.mp h
    rw [List.filter_cons, places, List.filterMap_cons]
    cases hi : c.origin with
    | none =>
      have hm : c.mark ≠ some .trusted := by
        rw [Honest, hi] at hc
        exact hc
      simp only [hm, decide_false, Bool.false_eq_true, if_false]
      exact ih hrest
    | some i =>
      obtain ⟨_, hti⟩ := hc.of_place hi
      simp only [hc.trusted hi, decide_true, if_true, List.filterMap_cons, hti, Cell.text_cons]
      exact congrArg _ (ih hrest)

/-- What stands at all places of a template is the template. -/
theorem filterMap_range_getElem? (t : Text) : (List.range t.length).filterMap (t[·]?) = t := by
  have htext := text_trusted (honest_ofTemplate t)
  rwa [List.filter_eq_self.mpr fun c hc => decide_eq_true (Cell.trusted_ofTemplate c hc),
    Cell.text_ofTemplate, places_ofTemplate, eq_comm] at htext

/-- The mark of a cell tells where it comes from. -/
theorem Fair.mark_provenance (hc : Fair t c) : c.mark = some c.provenance.mark := by
  obtain ⟨h, hm⟩ := hc
  rw [Cell.provenance]
  cases hi : c.origin with
  | some i => exact h.trusted hi
  | none =>
    obtain ⟨m, hm⟩ := Option.isSome_iff_exists.mp hm
    rw [Honest, hi] at h
    rw [hm] at h ⊢
    cases m with
    | trusted => exact absurd rfl h
    | resolved => rfl
    | guarding => rfl

/-- **The state of such cells is sound.** -/
theorem Faithful.sound (h : Faithful t cells) (hx : x.Holds cells) : x.Sound t where
  aligned := by
    have hlength := congrArg List.length hx.marks
    rw [List.length_map, List.length_map] at hlength
    rw [Buffer.Aligned, hx.text, Cell.length_text, hlength]
  guards i hi := by
    have hmark : (cells.map (·.mark))[i]? = some (some .guarding) := by
      rw [← hx.marks, List.getElem?_map, hi]
      rfl
    rw [List.getElem?_map, Option.map_eq_some_iff] at hmark
    obtain ⟨g, hg, hgm⟩ := hmark
    obtain ⟨b, hguard⟩ := h.guards.getElem? hg
    obtain ⟨hchar, n, hn, hnchar, hnmark⟩ := hguard hgm
    rw [Option.or_none] at hn
    rw [(hx.getElem? hg hgm).1, (hx.getElem? hn hnmark).1, hchar, hnchar]
    exact ⟨rfl, rfl, (hx.getElem? hn hnmark).2⟩
  trusted := by
    rw [hx.trustedText, text_trusted fun c hc => (h.fair c hc).1]
    have hkept := h.ordered.filterMap (t[·]?)
    rwa [filterMap_range_getElem?] at hkept
  marks := by
    refine (List.map_inj_right fun _ _ => Option.some.inj).mp ?_
    rw [hx.marks, hx.provenance, List.map_map, List.map_map]
    exact List.map_congr_left fun c hc => (h.fair c hc).mark_provenance

theorem faithful_ofTemplate (t : Text) : Faithful t (Cell.ofTemplate t) where
  fair := Buffer.cells_ofTemplate t ▸ fair_template t
  ordered := places_ofTemplate t ▸ List.Sublist.refl _
  guards := by
    refine along_of_forall fun c hc b n => guarding_of_ne ?_
    rw [Cell.trusted_ofTemplate c hc]
    decide

/-- **A span that begins with a cell of the template can be replaced**: no guard stands before it. -/
theorem Faithful.replace (h : Faithful t (front ++ c :: span ++ back)) (hc : c.mark = some .trusted)
    (hnew : ∀ d ∈ new, Fair t d ∧ d.mark ≠ some .guarding)
    (hplaces : (places new).Sublist (places (c :: span))) : Faithful t (front ++ new ++ back) where
  fair d hd := by
    rcases List.mem_append.mp hd with hd | hd
    · rcases List.mem_append.mp hd with hd | hd
      · exact h.fair d (by simp [hd])
      · exact (hnew d hd).1
    · exact h.fair d (by simp [hd])
  ordered := by
    refine List.Sublist.trans ?_ h.ordered
    simp only [places_append]
    exact ((List.Sublist.refl _).append hplaces).append (List.Sublist.refl _)
  guards := by
    have hguards := h.guards
    rw [List.append_assoc, along_append, along_append] at hguards ⊢
    obtain ⟨hfront, _, hback⟩ := hguards
    refine ⟨hfront.of_next fun b d hd hm => ?_,
      along_of_forall fun d hd b n => guarding_of_ne (hnew d hd).2, guards_behind hback⟩
    -- a guard at the end of the front would have a brace of data behind it
    obtain ⟨_, n, hn, _, hnm⟩ := hd hm
    cases hn
    rw [hc] at hnm
    cases hnm

/-- A brace that is not of the template is of data: a guard is no brace. -/
theorem Faithful.resolved (h : Faithful t (front ++ c :: back)) (hchar : c.char = ('{' : CodePoint))
    (hm : c.mark ≠ some .trusted) : c.mark = some .resolved := by
  obtain ⟨m, hmark⟩ := Option.isSome_iff_exists.mp (h.fair c (by simp)).2
  cases m with
  | trusted => exact absurd hmark hm
  | resolved => exact hmark
  | guarding =>
    have hslash := ((along_append.mp h.guards).2.1 hmark).1
    rw [hchar] at hslash
    exact absurd hslash (by decide)

/-- **A live brace of data can get a guard**: none stands before it. -/
theorem Faithful.guard (h : Faithful t (done.reverse ++ c :: rest)) (hchar : c.char = ('{' : CodePoint))
    (hlive : unescapedAfter done.head? = .ok true) (hm : c.mark ≠ some .trusted) :
    Faithful t (done.reverse ++ guardCell :: c :: rest) where
  fair d hd := by
    rcases List.mem_append.mp hd with hd | hd
    · exact h.fair d (List.mem_append_left _ hd)
    · rcases List.mem_cons.mp hd with rfl | hd
      · exact fair_guard t
      · exact h.fair d (List.mem_append_right _ hd)
  ordered := by
    have hplaces : places (done.reverse ++ guardCell :: c :: rest)
        = places (done.reverse ++ c :: rest) := by
      rw [places_append, places_append]
      rfl
    rw [hplaces]
    exact h.ordered
  guards := by
    obtain ⟨hdone, hc⟩ := along_reverse_append.mp h.guards
    refine along_reverse_append.mpr ⟨?_, fun _ => ⟨rfl, c, rfl, hchar, h.resolved hchar hm⟩, ?_, hc.2⟩
    · cases done with
      | nil => trivial
      | cons d done =>
        obtain ⟨hdone, hd⟩ := along_reverse_cons.mp hdone
        refine along_reverse_cons.mpr ⟨hdone, guarding_of_ne fun hg => ?_⟩
        -- behind a guard, the brace would not be live
        have hslash : d.char = ('\\' : CodePoint) := (hd hg).1
        simp [unescapedAfter, hslash, hg] at hlive
    · exact hc.1

end GraphFeed
