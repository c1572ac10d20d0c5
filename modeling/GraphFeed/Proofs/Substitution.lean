import GraphFeed.Proofs.Fallback
import GraphFeed.Proofs.Guarding

/-!
# The phase of fields is one pass

`substitute` is what the phase of fields is for, written down without a buffer: one pass over the
template from left to right that copies code points, puts values in, and reads on in fallbacks. It
keeps of its output only what a backslash needs: whether a code point was copied from the template.

The phase of fields sweeps again and again, guards braces of data and takes the guards out at the
end. `resolveFields_eq_substitute` says that nothing of this is seen: text and failure are those of
the one pass.

The first sweep does what the pass does (`sweep_eq_substitute`): what is left to read is of the
template alone, so a backslash is active exactly if it was copied. The sweeps after it only guard,
and guards are taken out (`unguarded_guarded`).
-/

namespace GraphFeed

open Buffer (Cell)

/-! ## 1. One pass -/

/-- A code point of the output, and whether it was copied from the template. -/
structure Written where
  char : CodePoint
  copied : Bool
deriving DecidableEq

/-- Whether a code point of the template opens a field placeholder: it is a brace, something other
    than an exclamation mark follows, and no backslash of the template was written before it. -/
def opensField (written : List Written) (c : CodePoint) (rest : Text) : Bool :=
  c = ('{' : CodePoint) && rest.head?.any (· ≠ ('!' : CodePoint))
    && written.head? ≠ some ⟨'\\', true⟩

/-- Fills the placeholder that the brace `c` opens: the output, with its last code point first, and
    what is left to read. Data is never read again, a fallback is. -/
def fillField (s : Splitter) (record : Record) (written : List Written) (c : CodePoint)
    (rest : Text) : Except Error (List Written × Text) :=
  match Brace.scan (Brace.classify · false) 0 false rest with
  | .unterminated | .unknown => .error (.unterminated (c :: rest))
  | .closed interior after =>
    (Placeholder.ofInterior interior).bind fun p => (p.value s record).map fun
      | some value => ((value.map (⟨·, false⟩)).reverse ++ written, after)
      | none => (written, p.fallback ++ after)

/-- What is left to read gets shorter. -/
theorem fillField_length {s : Splitter} {record : Record} {written written' : List Written}
    {c : CodePoint} {rest rest' : Text}
    (h : fillField s record written c rest = .ok (written', rest')) :
    rest'.length < (c :: rest).length := by
  unfold fillField at h
  split at h
  · cases h
  · cases h
  · rename_i interior after hs
    have hlen := Brace.scan_closed_length hs
    cases hp : Placeholder.ofInterior interior with
    | error e => rw [hp] at h; cases h
    | ok p =>
      have hfallback := Placeholder.length_fallback_le hp
      rw [hp] at h
      change (p.value s record).map _ = _ at h
      cases hv : p.value s record with
      | error e => rw [hv] at h; cases h
      | ok v =>
        rw [hv] at h
        cases v with
        | some value =>
          cases h
          rw [List.length_cons]
          omega
        | none =>
          cases h
          rw [List.length_append, List.length_cons]
          omega

/-- Puts the values of a record into what is left of a template, and gives the whole output. -/
def substitute (s : Splitter) (record : Record) (written : List Written) (t : Text) :
    Except Error Text :=
  match t with
  | [] => .ok (written.reverse.map (·.char))
  | c :: rest =>
    if opensField written c rest then
      match h : fillField s record written c rest with
      | .error e => .error e
      | .ok (written', rest') =>
        have := fillField_length h
        substitute s record written' rest'
    else substitute s record (⟨c, true⟩ :: written) rest
termination_by t.length
decreasing_by all_goals (simp only [List.length_cons] at *; omega)

section Steps

variable {s : Splitter} {record : Record} {written : List Written} {c : CodePoint} {rest : Text}

@[simp] theorem substitute_nil :
    substitute s record written [] = .ok (written.reverse.map (·.char)) := by
  rw [substitute]

/-- What opens no placeholder is copied. -/
theorem substitute_copy (h : opensField written c rest = false) :
    substitute s record written (c :: rest) = substitute s record (⟨c, true⟩ :: written) rest := by
  rw [substitute, h]
  rfl

/-- A placeholder is filled. -/
theorem substitute_fill (h : opensField written c rest = true) :
    substitute s record written (c :: rest)
      = (fillField s record written c rest).bind fun p => substitute s record p.1 p.2 := by
  rw [substitute, if_pos h]
  split
  · rename_i hf
    exact (congrArg (Except.bind · fun p => substitute s record p.1 p.2) hf).symm
  · rename_i hf
    exact (congrArg (Except.bind · fun p => substitute s record p.1 p.2) hf).symm

end Steps

/-! ## 2. The first sweep -/

/-- What a cell passed is to the one pass. -/
def Buffer.Cell.written (c : Cell) : Written := ⟨c.char, c.mark = some .trusted⟩

theorem written_ofText (value : Text) (done : List Cell) :
    ((Cell.ofText .resolved value).reverse ++ done).map Cell.written
      = (value.map (⟨·, false⟩)).reverse ++ done.map Cell.written := by
  rw [List.map_append, List.map_reverse, Cell.ofText, List.map_map]
  rfl

/-- The one pass and a sweep take the same braces for placeholders. -/
theorem opensField_eq_live {done rest : List Cell} {c : Cell}
    (hdone : ∀ d ∈ done, d.mark = some .trusted ∨ d.mark = some .resolved) :
    opensField (done.map Cell.written) c.char (Cell.text rest)
      = Phase.fields.live done.head? c rest.head? := by
  have hbefore : unescapedAfter done.head?
      = .ok (decide ((done.map Cell.written).head? ≠ some ⟨'\\', true⟩)) := by
    cases done with
    | nil => rfl
    | cons d done =>
      obtain ⟨⟨ch, origin⟩, m⟩ := d
      by_cases hch : ch = ('\\' : CodePoint)
      · subst hch
        rcases hdone _ List.mem_cons_self with hm | hm
        · cases hm
          rfl
        · cases hm
          rfl
      · simp [unescapedAfter, Cell.written, hch]
  rw [opensField]
  unfold Phase.live Phase.isLive
  by_cases hc : c.char = ('{' : CodePoint)
  · cases rest with
    | nil => simp
    | cons next rest => simp [hc, hbefore, Phase.opens, Bool.and_comm]
  · simp [hc]

/-- **A scan over cells of a template is a scan over their text.** -/
theorem scan_text {cells : List Cell} (h : ∀ c ∈ cells, c.mark = some .trusted) :
    Brace.scan (Brace.classify · false) 0 false (Cell.text cells)
      = (Brace.scan Cell.token 0 false cells).map (·.char) := by
  refine Brace.scan_map fun c hc => ?_
  rw [Cell.token, h c hc]
  simp

/-- **One step of the sweep is one step of the pass.** -/
theorem resolveBrace_fillField (s : Splitter) (record : Record) (filled : Nat)
    (done : List Cell) {rest : List Cell} {c : Cell} (hrest : ∀ d ∈ c :: rest, d.mark = some .trusted) :
    ((resolveBrace .fields (fieldFiller s record) filled done c rest).2.map
        fun f => (f.done.map Cell.written, Cell.text f.rest))
      = fillField s record (done.map Cell.written) c.char (Cell.text rest) := by
  have hscan := scan_text fun d hd => hrest d (List.mem_cons_of_mem c hd)
  rw [resolveBrace, hrest c List.mem_cons_self, fillField, hscan]
  cases hs : Brace.scan Cell.token 0 false rest with
  | unknown =>
    rw [hs] at hscan
    exact absurd hscan (Brace.scan_ne_unknown fun x _ => Brace.classify_ne_unknown x false)
  | unterminated => rfl
  | closed interior after =>
    have hfill := fill_fieldFiller s record filled c interior
    show _ = (Placeholder.ofInterior (Cell.text interior)).bind _
    cases hf : (fieldFiller s record).fill filled c interior with
    | mk trace result =>
      rw [hf] at hfill
      simp only [hf]
      cases hp : Placeholder.ofInterior (Cell.text interior) with
      | error e =>
        rw [hp] at hfill
        cases hfill
        rfl
      | ok p =>
        rw [hp] at hfill
        change _ = (p.value s record).map _ at hfill
        change _ = (p.value s record).map _
        cases hv : p.value s record with
        | error e =>
          rw [hv] at hfill
          cases hfill
          rfl
        | ok v =>
          rw [hv] at hfill
          cases hfill
          cases v with
          | some value =>
            show Except.ok (List.map Cell.written (_ ++ done), Cell.text after) = _
            rw [written_ofText]
            rfl
          | none =>
            show Except.ok (List.map Cell.written done, Cell.text (p.fallbackCells interior ++ after)) = _
            rw [Cell.text_append, Placeholder.text_fallbackCells hp]
            rfl

/-- The sweep and what it leaves are of the template and of data; what is left is of the template. -/
theorem resolveBrace_marks {s : Splitter} {record : Record} {filled : Nat} {done rest : List Cell}
    {c : Cell} {trace : List Happening} {f : Front}
    (hdone : ∀ d ∈ done, d.mark = some .trusted ∨ d.mark = some .resolved)
    (hrest : ∀ d ∈ c :: rest, d.mark = some .trusted)
    (h : resolveBrace .fields (fieldFiller s record) filled done c rest = (trace, .ok f)) :
    (∀ d ∈ f.done, d.mark = some .trusted ∨ d.mark = some .resolved) ∧
      ∀ d ∈ f.rest, d.mark = some .trusted := by
  obtain ⟨m, hm, hne, _⟩ | ⟨_, interior, after, filling, hs, hfill, rfl⟩ := resolveBrace_cases h
  · rw [hrest c List.mem_cons_self] at hm
    cases hm
    exact absurd rfl hne
  obtain ⟨close, _, hsplit⟩ := Brace.scan_closed _ _ _ _ _ _ hs
  have hafter : ∀ d ∈ after, d.mark = some .trusted := fun d hd => hrest d (by rw [hsplit]; simp [hd])
  cases filling with
  | data value =>
    refine ⟨fun d hd => ?_, hafter⟩
    rcases List.mem_append.mp hd with hd | hd
    · obtain ⟨x, _, rfl⟩ := List.mem_map.mp (List.mem_reverse.mp hd)
      exact .inr rfl
    · exact hdone d hd
  | template cells =>
    obtain ⟨p, _, _, rfl⟩ := fieldFiller_template hfill
    refine ⟨hdone, fun d hd => ?_⟩
    rcases List.mem_append.mp hd with hd | hd
    · exact Placeholder.mark_of_mem_fallbackCells hd
    · exact hafter d hd

/-- **The first sweep is the one pass.** -/
theorem sweep_eq_substitute (s : Splitter) (record : Record) (spare : List Mark) (filled : Nat)
    (done rest : List Cell)
    (hdone : ∀ d ∈ done, d.mark = some .trusted ∨ d.mark = some .resolved)
    (hrest : ∀ d ∈ rest, d.mark = some .trusted) :
    ((sweep .fields (fieldFiller s record) spare filled done rest).outcome.map
        fun cells => Cell.text (Cell.unguarded cells))
      = substitute s record (done.map Cell.written) (Cell.text rest) := by
  fun_induction sweep .fields (fieldFiller s record) spare filled done rest with
  | case1 filled done =>
    have hkeep : Cell.unguarded done.reverse = done.reverse := by
      refine List.filter_eq_self.mpr fun d hd => ?_
      rcases hdone d (List.mem_reverse.mp hd) with hm | hm <;> simp [hm]
    show Except.ok (Cell.text (Cell.unguarded done.reverse)) = _
    rw [hkeep, Cell.text_nil, substitute_nil, ← List.map_reverse, List.map_map]
    rfl
  | case2 filled done c rest e hl =>
    have hmark : ∀ b ∈ done.head?, b.mark.isSome := by
      intro b hb
      rcases hdone b (List.mem_of_mem_head? hb) with hm | hm <;> rw [hm] <;> rfl
    rw [Phase.isLive_eq_ok .fields c rest.head? hmark] at hl
    cases hl
  | case3 filled done c rest hl ih =>
    have hc := hrest c List.mem_cons_self
    have hopens : opensField (done.map Cell.written) c.char (Cell.text rest) = false := by
      rw [opensField_eq_live hdone, Phase.live, hl]
    have hwritten : c.written = ⟨c.char, true⟩ := by simp [Cell.written, hc]
    rw [ih (List.forall_mem_cons.mpr ⟨.inl hc, hdone⟩) fun d hd => hrest d (List.mem_cons_of_mem c hd),
      Cell.text_cons, substitute_copy hopens, List.map_cons, hwritten]
  | case4 filled done c rest hl trace e hr =>
    have hopens : opensField (done.map Cell.written) c.char (Cell.text rest) = true := by
      rw [opensField_eq_live hdone, Phase.live, hl]
    have hstep := resolveBrace_fillField s record filled done hrest
    rw [hr] at hstep
    rw [Cell.text_cons, substitute_fill hopens, ← hstep]
    rfl
  | case5 filled done c rest hl trace f hr _ ih =>
    have hopens : opensField (done.map Cell.written) c.char (Cell.text rest) = true := by
      rw [opensField_eq_live hdone, Phase.live, hl]
    have hstep := resolveBrace_fillField s record filled done hrest
    rw [hr] at hstep
    obtain ⟨hd, hleft⟩ := resolveBrace_marks hdone hrest hr
    rw [Cell.text_cons, substitute_fill hopens, ← hstep, Progress.outcome_after]
    exact ih hd hleft

/-! ## 3. The whole phase -/

/-- **The phase of fields is one pass over the template.** With its guards taken out, the buffer has
    the text that the pass gives; the phase fails exactly when the pass does, with the same error. -/
theorem resolveFields_eq_substitute (s : Splitter) (record : Record) (template : Text) :
    (resolveFields s record (.ofTemplate template)).outcome.map Buffer.cleanup
      = substitute s record [] template := by
  have hmarked := Cell.allMarked_ofTemplate template
  have hkeeps := fieldFiller_keeps_mark s record
  have hfirst := sweep_eq_substitute s record [] 0 [] (Cell.ofTemplate template) (by simp)
    Cell.trusted_ofTemplate
  rw [Cell.text_ofTemplate, List.map_nil] at hfirst
  rw [resolveFields_ofTemplate, ← hfirst]
  have hcleanup := Buffer.cleanup_ofCells (allMarked_settle [] hkeeps hmarked) []
  cases he : (sweep .fields (fieldFiller s record) [] 0 [] (Cell.ofTemplate template)).error with
  | some e =>
    rw [settle_of_error he]
    simp only [Progress.outcome, Progress.onBuffer, he]
    rfl
  | none =>
    obtain ⟨hstate, hok⟩ := settle_of_ok [] hkeeps hmarked he
    rw [hstate, unguarded_guarded] at hcleanup
    simp only [Progress.outcome, Progress.onBuffer, he, hok, hstate]
    exact congrArg Except.ok hcleanup

end GraphFeed
