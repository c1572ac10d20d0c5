import GraphFeed.Proofs.Numerals
import GraphFeed.Proofs.Shielding
import Mathlib.Data.List.TakeWhile

/-!
# Data and the end of a command

A command placeholder with a field in it is expanded in two phases: the value is put in first, and
only then the closing brace is looked for, which counts the braces of the value. So a value can end
the command early, or leave it without an end.

`command_of_field_iff` says when it does not: exactly if the value closes all command braces it opens,
and no more (`openBraces`). Then the command is the interior with the value for the field, and its
output takes the place of the placeholder. Otherwise

* `commands_of_early`: a closing brace of the value ends the command, and another one is run;
* `commands_of_late`: a brace of the value stays open, and no command is run.
-/

namespace GraphFeed

open Buffer (Cell)

/-! ## 1. The template -/

/-- A text without braces and backslashes. -/
def Text.Inert (t : Text) : Prop :=
  ∀ c ∈ t, c ≠ ('{' : CodePoint) ∧ c ≠ ('}' : CodePoint) ∧ c ≠ ('\\' : CodePoint)

instance (t : Text) : Decidable t.Inert :=
  inferInstanceAs (Decidable (∀ c ∈ t, c ≠ ('{' : CodePoint) ∧ c ≠ ('}' : CodePoint) ∧
    c ≠ ('\\' : CodePoint)))

/-- A command placeholder with a placeholder for field `n + 1` in it. -/
def commandTemplate (pre a : Text) (n : Nat) (b post : Text) : Text :=
  pre ++ ('{' : CodePoint) :: ('!' : CodePoint) :: (a ++ ('{' : CodePoint) ::
    (Text.ofNat (n + 1) ++ ('}' : CodePoint) :: (b ++ ('}' : CodePoint) :: post)))

namespace Text.Inert

variable {cells : List Cell} {c : Cell}

theorem ne_opening (h : Inert (Cell.text cells)) (hc : c ∈ cells) : c.char ≠ ('{' : CodePoint) :=
  (h c.char (List.mem_map_of_mem hc)).1

theorem ne_backslash (h : Inert (Cell.text cells)) (hc : c ∈ cells) : c.char ≠ ('\\' : CodePoint) :=
  (h c.char (List.mem_map_of_mem hc)).2.2

theorem token (h : Inert (Cell.text cells)) (hc : c ∈ cells) : c.token = .plain :=
  Cell.token_plain (h.ne_backslash hc) (h.ne_opening hc) (h c.char (List.mem_map_of_mem hc)).2.1

end Text.Inert

/-- A scan passes cells without braces and backslashes. -/
theorem overAll_inert : ∀ {cells : List Cell} {depth : Nat}, Text.Inert (Cell.text cells) →
    Brace.Level.overAll Cell.token ⟨depth, false⟩ cells = some ⟨depth, false⟩
  | [], _, _ => rfl
  | c :: cells, depth, h => by
    rw [Brace.overAll_cons, h.token List.mem_cons_self]
    exact overAll_inert fun d hd => h d (List.mem_cons_of_mem _ hd)

/-- A run of digits is read as a field number, if it is not too long. -/
theorem read_digits {t : Text} (ht : t ≠ []) (hdigits : ∀ c ∈ t, c.isDigit = true)
    (hpos : 1 ≤ Placeholder.numberValue t) :
    Placeholder.read t =
      if t.length ≤ maxIntegerDigits then
        .ok ⟨⟨Placeholder.numberValue t, some (Placeholder.numberValue t)⟩, [], false, false, []⟩
      else .error (.numberTooLong t.length) := by
  have hnumber : Placeholder.readNumber t =
      if t.length ≤ maxIntegerDigits then .ok (Placeholder.numberValue t, [])
      else .error (.numberTooLong t.length) := by
    have htake : t.takeWhile CodePoint.isDigit = t := List.takeWhile_eq_self_iff.mpr hdigits
    have hdrop : t.dropWhile CodePoint.isDigit = [] := List.dropWhile_eq_nil_iff.mpr hdigits
    have hempty : t.isEmpty = false := by simp [ht]
    simp only [Placeholder.readNumber, htake, hdrop, hempty, Bool.false_eq_true, if_false]
    by_cases hlen : t.length ≤ maxIntegerDigits
    · rw [if_neg (Nat.not_lt.mpr hlen), if_neg (Nat.not_lt.mpr hpos), if_pos hlen]
    · rw [if_pos (Nat.not_le.mp hlen), if_neg hlen]
  cases t with
  | nil => exact absurd rfl ht
  | cons c t =>
    have hc := hdigits c List.mem_cons_self
    have hmarks : Placeholder.readMarks (c :: t) = ((false, false), c :: t) := by
      unfold Placeholder.readMarks
      exact if_neg (ne_of_isDigit hc (by decide))
    have hrange : Placeholder.readRange (c :: t)
        = (Placeholder.readNumber (c :: t)).bind fun n => Placeholder.readLast n.1 n.2 := by
      unfold Placeholder.readRange
      dsimp only
      rw [if_neg (ne_of_isDigit hc (by decide))]
      cases Placeholder.readNumber (c :: t) <;> rfl
    rw [Placeholder.read, hmarks]
    by_cases hlen : (c :: t).length ≤ maxIntegerDigits
    · rw [if_pos hlen] at hnumber ⊢
      simp only [hrange, hnumber, Except.bind, Placeholder.readLast, Placeholder.readSteps]
      rfl
    · rw [if_neg hlen] at hnumber ⊢
      simp only [hrange, hnumber, Except.bind]

/-- A field number is read as a placeholder for that field, if it is not too long. -/
theorem ofInterior_ofNat (n : Nat) :
    Placeholder.ofInterior (Text.ofNat (n + 1)) =
      if (Text.ofNat (n + 1)).length ≤ maxIntegerDigits then
        .ok ⟨⟨(n + 1 : Nat), some (n + 1 : Nat)⟩, [], false, false, []⟩
      else .error (.fieldNumberTooLong (Text.ofNat (n + 1)).length) := by
  have hstrip : Text.strip (Text.ofNat (n + 1)) = Text.ofNat (n + 1) :=
    Text.strip_of_noBlank fun c hc => isBlank_of_isDigit (isDigit_ofNat hc)
  have hread := read_digits (ofNat_ne_nil (n + 1)) (fun c hc => isDigit_ofNat hc)
    (by rw [numberValue_ofNat]; omega)
  rw [numberValue_ofNat] at hread
  rw [Placeholder.ofInterior, hstrip, Placeholder.parse, hread, if_neg (by simp [ofNat_ne_nil])]
  split <;> rfl

/-- The value of a field that is not empty. -/
theorem value_of_field {s : Splitter} {record : Record} {n : Nat} {v : Text}
    (hv : record[n]? = some v) (hne : v ≠ []) :
    (⟨⟨(n + 1 : Nat), some (n + 1 : Nat)⟩, [], false, false, []⟩ : Placeholder).value s record
      = .ok (some v) := by
  obtain ⟨hlt, hget⟩ := List.getElem?_eq_some_iff.mp hv
  have hslice : Span.slice record (((n + 1 : Nat) : Int) - 1) (some (n + 1 : Nat)) = [v] := by
    have hfirst : ((n + 1 : Nat) : Int) - 1 = (n : Int) := by omega
    rw [Span.slice, hfirst, Span.clamp_natCast (by omega)]
    show (record.take (Span.clamp record.length (n + 1 : Nat))).drop n = [v]
    rw [Span.clamp_natCast (by omega), List.take_add_one, hv, Option.toList_some,
      List.drop_append_of_le_length (by rw [List.length_take]; omega)]
    simp
  have hempty : v.isEmpty = false := by simp [hne]
  simp only [Placeholder.value, hslice, Text.join_singleton, hempty]
  rfl

/-! ## 2. A placeholder for a field -/

/-- Cells whose text has a code point in the middle are cells with a cell in the middle. -/
theorem Buffer.Cell.split_text {cells : List Cell} {x y : Text} {c : CodePoint}
    (h : Cell.text cells = x ++ c :: y) :
    ∃ front d back, cells = front ++ d :: back ∧ Cell.text front = x ∧ d.char = c ∧
      Cell.text back = y := by
  obtain ⟨front, tail, rfl, hfront, htail⟩ := List.map_eq_append_iff.mp h
  obtain ⟨d, back, rfl, hd, hback⟩ := List.map_eq_cons_iff.mp htail
  exact ⟨front, d, back, rfl, hfront, hd, hback⟩

section Field

variable {n : Nat} {brace close : Cell} {digits before behind : List Cell} {s : Splitter}
  {record : Record}

/-- The interior of the placeholder is its number. -/
theorem scan_field (hdigits : Cell.text digits = Text.ofNat (n + 1))
    (hclose : close.char = ('}' : CodePoint)) (behind : List Cell) :
    Brace.scan Cell.token 0 false (digits ++ close :: behind) = .closed digits behind := by
  have hinert : Text.Inert (Cell.text digits) := by
    intro c hc
    rw [hdigits] at hc
    have hdigit := isDigit_ofNat hc
    exact ⟨ne_of_isDigit hdigit (by decide), ne_of_isDigit hdigit (by decide),
      ne_of_isDigit hdigit (by decide)⟩
  exact Brace.scan_append_closed (l := ⟨0, false⟩) (Cell.token_closing hclose)
    (overAll_inert hinert)

/-- Its brace is live for fields, if no backslash stands in front of it. -/
theorem isLive_field (hbrace : brace.char = ('{' : CodePoint))
    (hdigits : Cell.text digits = Text.ofNat (n + 1))
    (hbefore : ∀ c ∈ before.head?, c.char ≠ ('\\' : CodePoint)) :
    Phase.fields.isLive before.head? brace (digits ++ close :: behind).head? = .ok true := by
  obtain ⟨d, more, rfl⟩ : ∃ d more, digits = d :: more := by
    refine List.exists_cons_of_ne_nil fun hnil => ?_
    rw [hnil] at hdigits
    exact ofNat_ne_nil (n + 1) hdigits.symm
  have hd : d.char.isDigit = true := by
    refine isDigit_ofNat (n := n + 1) ?_
    rw [← hdigits]
    exact List.mem_cons_self
  rw [List.cons_append, List.head?_cons, Phase.isLive_unescaped hbefore hbrace]
  exact congrArg Except.ok (decide_eq_true (ne_of_isDigit hd (by decide)))

/-- **A sweep puts the value in the place of the field**, if its number is not too long. -/
theorem sweep_value (hbrace : brace.char = ('{' : CodePoint)) (hmark : brace.mark = some .trusted)
    (hdigits : Cell.text digits = Text.ofNat (n + 1)) (hclose : close.char = ('}' : CodePoint))
    (hbefore : ∀ c ∈ before.head?, c.char ≠ ('\\' : CodePoint))
    (hbehind : ∀ c ∈ behind, c.char ≠ ('{' : CodePoint)) {v : Text} (hv : record[n]? = some v)
    (hne : v ≠ []) (hlen : (Text.ofNat (n + 1)).length ≤ maxIntegerDigits) :
    (sweep .fields (fieldFiller s record) [] 0 before (brace :: (digits ++ close :: behind))).state
        = before.reverse ++ (Cell.ofText .resolved v ++ behind) ∧
      (sweep .fields (fieldFiller s record) [] 0 before
        (brace :: (digits ++ close :: behind))).error = none := by
  have hfill := fill_fieldFiller s record 0 brace digits
  rw [hdigits, ofInterior_ofNat, if_pos hlen] at hfill
  change _ = Except.map _ (Placeholder.value s _ record) at hfill
  rw [value_of_field hv hne] at hfill
  cases hf : (fieldFiller s record).fill 0 brace digits with
  | mk trace result =>
    rw [hf] at hfill
    cases hfill
    have hstep := resolveBrace_fill .fields before hmark (scan_field hdigits hclose behind) hf
    rw [sweep_resolve (isLive_field hbrace hdigits hbefore) hstep, Progress.state_after,
      Progress.error_after, Filling.put, sweep_noBrace _ _ _ _ _ hbehind]
    refine ⟨?_, rfl⟩
    simp

/-- A number that is too long is refused. -/
theorem sweep_refused (hbrace : brace.char = ('{' : CodePoint)) (hmark : brace.mark = some .trusted)
    (hdigits : Cell.text digits = Text.ofNat (n + 1)) (hclose : close.char = ('}' : CodePoint))
    (hbefore : ∀ c ∈ before.head?, c.char ≠ ('\\' : CodePoint))
    (hlen : ¬(Text.ofNat (n + 1)).length ≤ maxIntegerDigits) :
    (sweep .fields (fieldFiller s record) [] 0 before
      (brace :: (digits ++ close :: behind))).error.isSome := by
  have hfill := fill_fieldFiller s record 0 brace digits
  rw [hdigits, ofInterior_ofNat, if_neg hlen] at hfill
  cases hf : (fieldFiller s record).fill 0 brace digits with
  | mk trace result =>
    rw [hf] at hfill
    cases hfill
    have hstep := resolveBrace_refused .fields before hmark (scan_field hdigits hclose behind) hf
    rw [sweep_fail (isLive_field hbrace hdigits hbefore) hstep]
    rfl

end Field

/-! ## 3. The cells of the template -/

/-- The cells of a template with a command placeholder and a field in it. -/
structure CommandCells (pre a : Text) (n : Nat) (b post : Text) where
  front : List Cell
  brace : Cell
  bang : Cell
  inner : List Cell
  fieldBrace : Cell
  digits : List Cell
  fieldClose : Cell
  tail : List Cell
  close : Cell
  rest : List Cell
  text_front : Cell.text front = pre
  char_brace : brace.char = ('{' : CodePoint)
  char_bang : bang.char = ('!' : CodePoint)
  text_inner : Cell.text inner = a
  char_fieldBrace : fieldBrace.char = ('{' : CodePoint)
  text_digits : Cell.text digits = Text.ofNat (n + 1)
  char_fieldClose : fieldClose.char = ('}' : CodePoint)
  text_tail : Cell.text tail = b
  char_close : close.char = ('}' : CodePoint)
  text_rest : Cell.text rest = post
  trusted : ∀ c ∈ front ++ brace :: bang :: (inner ++ fieldBrace :: (digits ++ fieldClose ::
    (tail ++ close :: rest))), c.mark = some .trusted

namespace CommandCells

variable {pre a b post : Text} {n : Nat}

/-- All cells. -/
def cells (k : CommandCells pre a n b post) : List Cell :=
  k.front ++ k.brace :: k.bang :: (k.inner ++ k.fieldBrace :: (k.digits ++ k.fieldClose ::
    (k.tail ++ k.close :: k.rest)))

/-- The cells with others in the place of the field. -/
def filled (k : CommandCells pre a n b post) (value : List Cell) : List Cell :=
  k.front ++ k.brace :: k.bang :: (k.inner ++ (value ++ (k.tail ++ k.close :: k.rest)))

theorem exists_cells (pre a : Text) (n : Nat) (b post : Text) :
    ∃ k : CommandCells pre a n b post, Cell.ofTemplate (commandTemplate pre a n b post) = k.cells := by
  obtain ⟨front, brace, t₁, h₁, hfront, hbrace, ht₁⟩ :=
    Cell.split_text (Cell.text_ofTemplate (commandTemplate pre a n b post))
  obtain ⟨none, bang, t₂, rfl, hnone, hbang, ht₂⟩ := Cell.split_text (x := []) ht₁
  obtain ⟨inner, fieldBrace, t₃, rfl, hinner, hfieldBrace, ht₃⟩ := Cell.split_text ht₂
  obtain ⟨digits, fieldClose, t₄, rfl, hdigits, hfieldClose, ht₄⟩ := Cell.split_text ht₃
  obtain ⟨tail, close, rest, rfl, htail, hclose, hrest⟩ := Cell.split_text ht₄
  rw [List.map_eq_nil_iff.mp hnone, List.nil_append] at h₁
  refine ⟨⟨front, brace, bang, inner, fieldBrace, digits, fieldClose, tail, close, rest, hfront,
    hbrace, hbang, hinner, hfieldBrace, hdigits, hfieldClose, htail, hclose, hrest, fun c hc => ?_⟩,
    h₁⟩
  rw [← h₁] at hc
  exact Cell.trusted_ofTemplate c hc

variable (k : CommandCells pre a n b post)

theorem ne_backslash_front (hpre : Text.Inert pre) : ∀ c ∈ k.front, c.char ≠ ('\\' : CodePoint) := by
  rw [← k.text_front] at hpre
  exact fun c hc => hpre.ne_backslash hc

theorem ne_opening_front (hpre : Text.Inert pre) : ∀ c ∈ k.front, c.char ≠ ('{' : CodePoint) := by
  rw [← k.text_front] at hpre
  exact fun c hc => hpre.ne_opening hc

/-- In front of the field is an exclamation mark, and no brace or backslash behind it. -/
theorem ne_backslash_inner (ha : Text.Inert a) :
    ∀ c ∈ k.bang :: k.inner, c.char ≠ ('\\' : CodePoint) := by
  rw [← k.text_inner] at ha
  refine List.forall_mem_cons.mpr ⟨?_, fun c hc => ha.ne_backslash hc⟩
  rw [k.char_bang]
  decide

theorem ne_opening_inner (ha : Text.Inert a) :
    ∀ c ∈ k.bang :: k.inner, c.char ≠ ('{' : CodePoint) := by
  rw [← k.text_inner] at ha
  refine List.forall_mem_cons.mpr ⟨?_, fun c hc => ha.ne_opening hc⟩
  rw [k.char_bang]
  decide

/-- The command brace is not live for fields. -/
theorem isLive_brace (hpre : Text.Inert pre) (phase : Phase) :
    phase.isLive k.front.reverse.head? k.brace (some k.bang) = .ok (phase.opens '!') := by
  rw [Phase.isLive_unescaped _ k.char_brace, k.char_bang]
  exact fun c hc => k.ne_backslash_front hpre c (List.mem_reverse.mp (List.mem_of_mem_head? hc))

/-- What stands behind the value is no opening brace. -/
theorem ne_opening_behind (hb : Text.Inert b) (hpost : Text.Inert post) :
    ∀ c ∈ k.tail ++ k.close :: k.rest, c.char ≠ ('{' : CodePoint) := by
  rw [← k.text_tail] at hb
  rw [← k.text_rest] at hpost
  intro c hc
  rcases List.mem_append.mp hc with hc | hc
  · exact hb.ne_opening hc
  · rcases List.mem_cons.mp hc with rfl | hc
    · rw [k.char_close]
      decide
    · exact hpost.ne_opening hc

/-- The sweep over fields comes to the field. -/
theorem sweep_cells (hpre : Text.Inert pre) (ha : Text.Inert a) (filler : Filler) :
    sweep .fields filler [] 0 [] k.cells =
      sweep .fields filler [] 0 (k.inner.reverse ++ k.bang :: k.brace :: k.front.reverse)
        (k.fieldBrace :: (k.digits ++ k.fieldClose :: (k.tail ++ k.close :: k.rest))) := by
  rw [cells, sweep_passAll (k.ne_opening_front hpre), List.append_nil,
    sweep_pass (k.isLive_brace hpre .fields), ← List.cons_append,
    sweep_passAll (k.ne_opening_inner ha), List.reverse_cons, List.append_assoc]
  rfl

/-- No backslash stands in front of the field. -/
theorem ne_backslash_field (ha : Text.Inert a) :
    ∀ c ∈ (k.inner.reverse ++ k.bang :: k.brace :: k.front.reverse).head?,
      c.char ≠ ('\\' : CodePoint) := by
  have hsplit : k.inner.reverse ++ k.bang :: k.brace :: k.front.reverse
      = (k.bang :: k.inner).reverse ++ k.brace :: k.front.reverse := by simp
  rw [hsplit, List.head?_append, List.head?_reverse, List.getLast?_cons]
  exact fun c hc => k.ne_backslash_inner ha c (List.mem_of_getLast? (by
    rw [List.getLast?_cons]
    exact hc))

/-- **The field gets its value**, if its number is not too long. -/
theorem sweep_fields (hpre : Text.Inert pre) (ha : Text.Inert a) (hb : Text.Inert b)
    (hpost : Text.Inert post) {s : Splitter} {record : Record} {v : Text}
    (hv : record[n]? = some v) (hne : v ≠ [])
    (hlen : (Text.ofNat (n + 1)).length ≤ maxIntegerDigits) :
    (sweep .fields (fieldFiller s record) [] 0 [] k.cells).state
        = k.filled (Cell.ofText .resolved v) ∧
      (sweep .fields (fieldFiller s record) [] 0 [] k.cells).error = none := by
  have hmark : k.fieldBrace.mark = some .trusted := k.trusted _ (by simp)
  obtain ⟨hstate, herror⟩ := sweep_value (s := s) k.char_fieldBrace hmark k.text_digits
    k.char_fieldClose (k.ne_backslash_field ha) (k.ne_opening_behind hb hpost) hv hne hlen
  rw [k.sweep_cells hpre ha, hstate, herror]
  refine ⟨?_, rfl⟩
  simp [filled]

/-- A field number that is too long is refused. -/
theorem sweep_fields_refused (hpre : Text.Inert pre) (ha : Text.Inert a) (s : Splitter)
    (record : Record) (hlen : ¬ (Text.ofNat (n + 1)).length ≤ maxIntegerDigits) :
    (sweep .fields (fieldFiller s record) [] 0 [] k.cells).error.isSome := by
  have hmark : k.fieldBrace.mark = some .trusted := k.trusted _ (by simp)
  rw [k.sweep_cells hpre ha]
  exact sweep_refused k.char_fieldBrace hmark k.text_digits k.char_fieldClose
    (k.ne_backslash_field ha) hlen

/-- **The value is guarded.** -/
theorem guarded_filled (hpre : Text.Inert pre) (ha : Text.Inert a) (hb : Text.Inert b)
    (hpost : Text.Inert post) {v : Text} (hslash : ('\\' : CodePoint) ∉ v) :
    guarded .fields none (k.filled (Cell.ofText .resolved v))
      = k.filled ((shield (b.head?.getD '}') v).flatMap Shielded.cells) := by
  have hbrace : Phase.fields.live (k.front.getLast?.or none) k.brace (some k.bang) = false := by
    rw [Option.or_none, ← List.head?_reverse, Phase.live, k.isLive_brace hpre]
    rfl
  have hlast : ∀ c ∈ (k.bang :: k.inner).getLast?.or (some k.brace), c.char ≠ ('\\' : CodePoint) := by
    intro c hc
    refine k.ne_backslash_inner ha c (List.mem_of_getLast? ?_)
    rw [List.getLast?_cons] at hc ⊢
    exact hc
  obtain ⟨r, behind, hbehind, hr⟩ : ∃ r behind, k.tail ++ k.close :: k.rest = r :: behind ∧
      r.char = b.head?.getD '}' := by
    have hhead := congrArg (fun t : Text => t.head?.getD ('}' : CodePoint)) k.text_tail
    cases htail : k.tail with
    | nil =>
      rw [htail] at hhead
      exact ⟨k.close, k.rest, rfl, k.char_close.trans hhead⟩
    | cons r tail =>
      rw [htail] at hhead
      exact ⟨r, tail ++ k.close :: k.rest, rfl, hhead⟩
  have hrest := k.ne_opening_behind hb hpost
  rw [hbehind] at hrest
  rw [filled, guarded_append (k.ne_opening_front hpre), guarded_cons hbrace, ← List.cons_append,
    guarded_append (k.ne_opening_inner ha), hbehind, guarded_data hrest hslash hlast, hr, filled,
    hbehind]
  rfl

/-! ## 4. The command -/

/-- The command in cells of the interior, guards and all. -/
theorem commandOf_shield (bang : Cell) (after : CodePoint) {before behind : List Cell} {v : Text}
    (hbefore : Text.Inert (Cell.text before)) (hbehind : Text.Inert (Cell.text behind))
    (hslash : ('\\' : CodePoint) ∉ v) :
    commandOf (bang :: (before ++ ((shield after v).flatMap Shielded.cells ++ behind)))
      = Text.strip (Cell.text before ++ (v ++ Cell.text behind)) := by
  -- the cells of the template are pieces without a guard
  let plain : Text → List Shielded := fun t => t.map (⟨·, false⟩)
  have hplain : ∀ t : Text, (plain t).flatMap Shielded.written = t ∧ (plain t).map (·.char) = t := by
    intro t
    induction t with
    | nil => exact ⟨rfl, rfl⟩
    | cons c t ih => exact ⟨congrArg (c :: ·) ih.1, congrArg (c :: ·) ih.2⟩
  have hproper : ∀ p ∈ plain (Cell.text before) ++ (shield after v ++ plain (Cell.text behind)),
      p.Proper := by
    have inert : ∀ {t : Text}, Text.Inert t → ∀ p ∈ plain t, p.Proper := by
      intro t ht p hp
      obtain ⟨c, hc, rfl⟩ := List.mem_map.mp hp
      exact ⟨(ht c hc).2.2, fun h => absurd h Bool.false_ne_true⟩
    intro p hp
    rcases List.mem_append.mp hp with hp | hp
    · exact inert hbefore p hp
    · rcases List.mem_append.mp hp with hp | hp
      · exact proper_shield hslash p hp
      · exact inert hbehind p hp
  have hcommand := unescapeCommand_strip_written hproper
  rw [List.flatMap_append, List.flatMap_append, (hplain _).1, (hplain _).1, List.map_append,
    List.map_append, (hplain _).2, (hplain _).2, map_char_shield] at hcommand
  rw [commandOf, List.drop_one, List.tail_cons, Cell.text_append, Cell.text_append,
    Shielded.text_cells]
  exact hcommand

/-- The scan for the end of the command goes over the value. -/
theorem overAll_inner (ha : Text.Inert a) (after : CodePoint) {v : Text}
    (hslash : ('\\' : CodePoint) ∉ v) :
    Brace.Level.overAll Cell.token ⟨0, false⟩
        (k.bang :: (k.inner ++ (shield after v).flatMap Shielded.cells))
      = (openBraces after 0 v).map (⟨·, false⟩) := by
  have hbang : k.bang.token = .plain := by
    refine Cell.token_plain ?_ ?_ ?_
    all_goals
      rw [k.char_bang]
      decide
  rw [← k.text_inner] at ha
  rw [Brace.overAll_cons, hbang]
  show Brace.Level.overAll Cell.token ⟨0, false⟩ (k.inner ++ _) = _
  rw [Brace.overAll_append, overAll_inert ha, Option.bind_some, overAll_shield hslash]

/-- The sweep over commands comes to the command. -/
theorem sweep_filled (hpre : Text.Inert pre) (runner : Runner) (value : List Cell) :
    sweep .commands (commandFiller runner) [] 0 [] (k.filled value)
      = sweep .commands (commandFiller runner) [] 0 k.front.reverse
          (k.brace :: k.bang :: (k.inner ++ (value ++ (k.tail ++ k.close :: k.rest)))) := by
  rw [filled, sweep_passAll (k.ne_opening_front hpre), List.append_nil]

/-- **What the scan finds is run**, and then the sweep goes on behind it. -/
theorem sweep_command (hpre : Text.Inert pre) (runner : Runner) {value interior after : List Cell}
    (hs : Brace.scan Cell.token 0 false
      (k.bang :: (k.inner ++ (value ++ (k.tail ++ k.close :: k.rest)))) = .closed interior after) :
    (∃ e, runner 0 (commandOf interior) = .error e ∧
      (sweep .commands (commandFiller runner) [] 0 [] (k.filled value)).trace.filterMap
          Happening.command? = [commandOf interior]) ∨
    ∃ o, runner 0 (commandOf interior) = .ok o ∧
      (sweep .commands (commandFiller runner) [] 0 [] (k.filled value)).trace.filterMap
          Happening.command?
        = commandOf interior :: (sweep .commands (commandFiller runner) [] 1
            ((Cell.ofText .resolved o.inlined).reverse ++ k.front.reverse) after).trace.filterMap
              Happening.command? ∧
      (sweep .commands (commandFiller runner) [] 0 [] (k.filled value)).outcome
        = (sweep .commands (commandFiller runner) [] 1
            ((Cell.ofText .resolved o.inlined).reverse ++ k.front.reverse) after).outcome := by
  have hmark : k.brace.mark = some .trusted := k.trusted _ (by simp)
  have hlive := k.isLive_brace hpre .commands
  rw [k.sweep_filled hpre]
  cases hrun : runner 0 (commandOf interior) with
  | error e =>
    have hfill : (commandFiller runner).fill 0 k.brace interior
        = ([.running k.brace interior (commandOf interior)], .error e) := by
      simp only [commandFiller, hrun]
    left
    rw [sweep_fail hlive (resolveBrace_refused .commands k.front.reverse hmark hs hfill)]
    exact ⟨e, rfl, rfl⟩
  | ok o =>
    have hfill : (commandFiller runner).fill 0 k.brace interior
        = ([.running k.brace interior (commandOf interior), .answered o], .ok (.data o.inlined)) := by
      simp only [commandFiller, hrun]
    right
    rw [sweep_resolve hlive (resolveBrace_fill .commands k.front.reverse hmark hs hfill)]
    exact ⟨o, rfl, rfl, rfl⟩

/-- **A command that ends with its own brace is the only one**, and its output takes its place. -/
theorem expand_of_closed (hpre : Text.Inert pre) (hpost : Text.Inert post) {s : Splitter}
    (runner : Runner) {record : Record} {value interior : List Cell}
    (hok : (GraphFeed.settle (fieldFiller s record) []
      (Cell.ofTemplate (commandTemplate pre a n b post))).error = none)
    (hstate : (GraphFeed.settle (fieldFiller s record) []
      (Cell.ofTemplate (commandTemplate pre a n b post))).state = k.filled value)
    (hscan : Brace.scan Cell.token 0 false
      (k.bang :: (k.inner ++ (value ++ (k.tail ++ k.close :: k.rest)))) = .closed interior k.rest) :
    (expand s runner (commandTemplate pre a n b post) record).commands = [commandOf interior] ∧
      ∀ o, runner 0 (commandOf interior) = .ok o →
        (expand s runner (commandTemplate pre a n b post) record).result
          = .ok (pre ++ o.inlined ++ post) := by
  have hrest : ∀ c ∈ k.rest, c.char ≠ ('{' : CodePoint) := by
    rw [← k.text_rest] at hpost
    exact fun c hc => hpost.ne_opening hc
  rw [(expand_of_ok hok hstate).1, (expand_of_ok hok hstate).2]
  rcases k.sweep_command hpre runner hscan with ⟨e, hrun, hfail⟩ | ⟨o, hrun, hdone, houtcome⟩
  · refine ⟨hfail, fun o ho => ?_⟩
    rw [hrun] at ho
    cases ho
  · rw [sweep_noBrace _ _ _ _ _ hrest] at hdone houtcome
    refine ⟨hdone, fun o' ho => ?_⟩
    rw [hrun] at ho
    cases ho
    have hcells : ((Cell.ofText .resolved o.inlined).reverse ++ k.front.reverse).reverse ++ k.rest
        = k.front ++ (Cell.ofText .resolved o.inlined ++ k.rest) := by simp
    have hkeep : Cell.unguarded (k.front ++ (Cell.ofText .resolved o.inlined ++ k.rest))
        = k.front ++ (Cell.ofText .resolved o.inlined ++ k.rest) := by
      refine List.filter_eq_self.mpr fun c hc => ?_
      rcases List.mem_append.mp hc with hc | hc
      · simp [k.trusted c (by simp [hc])]
      · rcases List.mem_append.mp hc with hc | hc
        · obtain ⟨x, _, rfl⟩ := List.mem_map.mp hc
          rfl
        · simp [k.trusted c (by simp [hc])]
    rw [houtcome, hcells]
    show Except.ok (Cell.text (Cell.unguarded _)) = _
    rw [hkeep, Cell.text_append, Cell.text_append, Cell.text_ofText, k.text_front, k.text_rest,
      List.append_assoc]

end CommandCells

/-! ## 5. The expansion -/

/-- No command is run where the field number is too long. -/
theorem commands_of_longNumber {pre a b post : Text} {n : Nat} (hpre : Text.Inert pre)
    (ha : Text.Inert a) (s : Splitter) (runner : Runner) (record : Record)
    (hlen : ¬ (Text.ofNat (n + 1)).length ≤ maxIntegerDigits) :
    (expand s runner (commandTemplate pre a n b post) record).commands = [] := by
  obtain ⟨k, hk⟩ := CommandCells.exists_cells pre a n b post
  have herror := k.sweep_fields_refused hpre ha s record hlen
  obtain ⟨e, he⟩ := Option.isSome_iff_exists.mp herror
  refine commands_expand_of_error ?_
  rw [hk, settle_of_error he, he]
  rfl

/-- What is known of a template with a field in a command, and of the value of the field. -/
structure FieldInCommand (pre a : Text) (n : Nat) (b post : Text) (record : Record) (v : Text) :
    Prop where
  pre : pre.Inert
  inner : a.Inert
  tail : b.Inert
  post : post.Inert
  value : record[n]? = some v
  nonempty : v ≠ []
  noBackslash : ('\\' : CodePoint) ∉ v

namespace FieldInCommand

variable {pre a b post v : Text} {n : Nat} {record : Record} (s : Splitter) (runner : Runner)

/-- The phase of fields puts in the value, guarded. -/
theorem settle (h : FieldInCommand pre a n b post record v)
    (hlen : (Text.ofNat (n + 1)).length ≤ maxIntegerDigits) {k : CommandCells pre a n b post}
    (hk : Cell.ofTemplate (commandTemplate pre a n b post) = k.cells) :
    (GraphFeed.settle (fieldFiller s record) []
        (Cell.ofTemplate (commandTemplate pre a n b post))).error = none ∧
      (GraphFeed.settle (fieldFiller s record) []
        (Cell.ofTemplate (commandTemplate pre a n b post))).state
        = k.filled ((shield (b.head?.getD '}') v).flatMap Shielded.cells) := by
  obtain ⟨hstate, herror⟩ := k.sweep_fields (s := s) h.pre h.inner h.tail h.post h.value h.nonempty hlen
  have hmarked := Cell.allMarked_ofTemplate (commandTemplate pre a n b post)
  rw [hk] at hmarked ⊢
  obtain ⟨hsettled, hok⟩ := settle_of_ok [] (fieldFiller_keeps_mark s record) hmarked herror
  rw [hsettled, hstate, k.guarded_filled h.pre h.inner h.tail h.post h.noBackslash]
  exact ⟨hok, rfl⟩

/-- A field number that is too long ends the expansion. -/
theorem commands_of_long (h : FieldInCommand pre a n b post record v)
    (hlen : ¬ (Text.ofNat (n + 1)).length ≤ maxIntegerDigits) :
    (expand s runner (commandTemplate pre a n b post) record).commands = [] :=
  commands_of_longNumber h.pre h.inner s runner record hlen

/-- **A value that leaves a brace open keeps the command from being run.** -/
theorem commands_of_late {depth : Nat} (h : FieldInCommand pre a n b post record v)
    (hlen : (Text.ofNat (n + 1)).length ≤ maxIntegerDigits)
    (hopen : openBraces (b.head?.getD '}') 0 v = some (depth + 1)) :
    (expand s runner (commandTemplate pre a n b post) record).commands = [] := by
  obtain ⟨k, hk⟩ := CommandCells.exists_cells pre a n b post
  obtain ⟨hok, hstate⟩ := h.settle s hlen hk
  have hmark : k.brace.mark = some .trusted := k.trusted _ (by simp)
  have htail : Text.Inert (Cell.text k.tail) := by rw [k.text_tail]; exact h.tail
  have hrest : Text.Inert (Cell.text k.rest) := by rw [k.text_rest]; exact h.post
  have hinner := k.overAll_inner h.inner (b.head?.getD '}') h.noBackslash
  -- the brace that would close the command closes the brace of the value
  have hover : Brace.Level.overAll Cell.token ⟨0, false⟩ (k.bang :: (k.inner ++
      ((shield (b.head?.getD '}') v).flatMap Shielded.cells ++ (k.tail ++ k.close :: k.rest))))
        = some ⟨depth, false⟩ := by
    rw [← List.append_assoc, ← List.cons_append, Brace.overAll_append, hinner, hopen,
      Option.map_some, Option.bind_some, Brace.overAll_append, overAll_inert htail, Option.bind_some,
      Brace.overAll_cons, Cell.token_closing k.char_close]
    exact overAll_inert hrest
  have hscan := Brace.scan_eq_unterminated hover
  rw [(expand_of_ok hok hstate).1, k.sweep_filled h.pre,
    sweep_fail (k.isLive_brace h.pre .commands)
      (resolveBrace_unterminated .commands k.front.reverse hmark hscan)]
  rfl

/-- **A value that closes too much ends the command early.** -/
theorem commands_of_early (h : FieldInCommand pre a n b post record v)
    (hlen : (Text.ofNat (n + 1)).length ≤ maxIntegerDigits)
    (hopen : openBraces (b.head?.getD '}') 0 v = none) :
    ∃ front back later, v = front ++ ('}' : CodePoint) :: back ∧
      (expand s runner (commandTemplate pre a n b post) record).commands
        = Text.strip (a ++ front) :: later := by
  obtain ⟨k, hk⟩ := CommandCells.exists_cells pre a n b post
  obtain ⟨hok, hstate⟩ := h.settle s hlen hk
  obtain ⟨front, back, hv, hfront⟩ := openBraces_eq_none hopen
  have hslash : ('\\' : CodePoint) ∉ front := fun hm =>
    h.noBackslash (by rw [hv]; exact List.mem_append_left _ hm)
  have hinner := k.overAll_inner h.inner '}' hslash
  rw [hfront, Option.map_some] at hinner
  have hshield : (shield (b.head?.getD '}') v).flatMap Shielded.cells
      = (shield '}' front).flatMap Shielded.cells ++ ⟨⟨'}', none⟩, some .resolved⟩ ::
          (shield (b.head?.getD '}') back).flatMap Shielded.cells := by
    rw [hv, shield_append, List.flatMap_append, shield, List.flatMap_cons]
    rfl
  have hscan : Brace.scan Cell.token 0 false (k.bang :: (k.inner ++
      ((shield (b.head?.getD '}') v).flatMap Shielded.cells ++ (k.tail ++ k.close :: k.rest))))
        = .closed (k.bang :: (k.inner ++ (shield '}' front).flatMap Shielded.cells))
          ((shield (b.head?.getD '}') back).flatMap Shielded.cells
            ++ (k.tail ++ k.close :: k.rest)) :=
    (Brace.scan_eq_closed_iff (l := ⟨0, false⟩)).mpr
      ⟨⟨⟨'}', none⟩, some .resolved⟩, by rw [hshield]; simp, rfl, hinner⟩
  have hcommand : commandOf (k.bang :: (k.inner ++ (shield '}' front).flatMap Shielded.cells))
      = Text.strip (a ++ front) := by
    have hinert : Text.Inert (Cell.text k.inner) := by rw [k.text_inner]; exact h.inner
    have hempty : Text.Inert (Cell.text []) := fun c hc => absurd hc List.not_mem_nil
    have hof := CommandCells.commandOf_shield k.bang '}' hinert hempty hslash
    rwa [List.append_nil, Cell.text_nil, List.append_nil, k.text_inner] at hof
  rw [(expand_of_ok hok hstate).1]
  rcases k.sweep_command h.pre runner hscan with ⟨e, _, hrun⟩ | ⟨o, _, hrun, _⟩
  · exact ⟨front, back, [], hv, by rw [hrun, hcommand]⟩
  · exact ⟨front, back, _, hv, by rw [hrun, hcommand]⟩

/-- **A value that closes what it opens is part of the command**, whose output takes its place. -/
theorem expand_of_own (h : FieldInCommand pre a n b post record v)
    (hlen : (Text.ofNat (n + 1)).length ≤ maxIntegerDigits)
    (hopen : openBraces (b.head?.getD '}') 0 v = some 0) :
    (expand s runner (commandTemplate pre a n b post) record).commands
        = [Text.strip (a ++ v ++ b)] ∧
      ∀ o, runner 0 (Text.strip (a ++ v ++ b)) = .ok o →
        (expand s runner (commandTemplate pre a n b post) record).result
          = .ok (pre ++ o.inlined ++ post) := by
  obtain ⟨k, hk⟩ := CommandCells.exists_cells pre a n b post
  obtain ⟨hok, hstate⟩ := h.settle s hlen hk
  have hinert : Text.Inert (Cell.text k.inner) := by rw [k.text_inner]; exact h.inner
  have htail : Text.Inert (Cell.text k.tail) := by rw [k.text_tail]; exact h.tail
  have hinner := k.overAll_inner h.inner (b.head?.getD '}') h.noBackslash
  have hscan : Brace.scan Cell.token 0 false (k.bang :: (k.inner ++
      ((shield (b.head?.getD '}') v).flatMap Shielded.cells ++ (k.tail ++ k.close :: k.rest))))
        = .closed (k.bang :: (k.inner ++
          ((shield (b.head?.getD '}') v).flatMap Shielded.cells ++ k.tail))) k.rest := by
    refine (Brace.scan_eq_closed_iff (l := ⟨0, false⟩)).mpr
      ⟨k.close, by simp, Cell.token_closing k.char_close, ?_⟩
    rw [← List.append_assoc, ← List.cons_append, Brace.overAll_append, hinner, hopen,
      Option.map_some, Option.bind_some, overAll_inert htail]
  have hcommand : commandOf (k.bang :: (k.inner ++
      ((shield (b.head?.getD '}') v).flatMap Shielded.cells ++ k.tail)))
        = Text.strip (a ++ v ++ b) := by
    rw [CommandCells.commandOf_shield k.bang _ hinert htail h.noBackslash, k.text_inner, k.text_tail,
      List.append_assoc]
  have hexpand := k.expand_of_closed h.pre h.post runner hok hstate hscan
  rwa [hcommand] at hexpand

/-- What is left out by an early end is missed. -/
theorem strip_ne_of_early {front back : Text} (hv : v = front ++ ('}' : CodePoint) :: back) :
    Text.strip (a ++ front) ≠ Text.strip (a ++ v ++ b) := by
  intro heq
  have hcount := congrArg (List.count ('}' : CodePoint)) heq
  rw [Text.count_strip (by decide), Text.count_strip (by decide), hv] at hcount
  simp only [List.count_append, List.count_cons_self] at hcount
  omega

end FieldInCommand

/-! ## 6. When a value stays in the command -/

/-- **When the value of a field does not move the end of a command.** In a command placeholder with
    one field in it, let the value of the field be a text without a backslash, and let there be no
    other braces and backslashes. Then the interior with the value for the field is the one command
    that is run, and its output takes the place of the placeholder, exactly if the value closes all
    command braces that it opens and none besides (and the field number is not too long to be
    read). -/
theorem command_of_field_iff (s : Splitter) (runner : Runner) (record : Record) {pre a b post v : Text}
    {n : Nat} (hpre : pre.Inert) (ha : a.Inert) (hb : b.Inert) (hpost : post.Inert)
    (hv : record[n]? = some v) (hne : v ≠ []) (hslash : ('\\' : CodePoint) ∉ v) :
    ((expand s runner (commandTemplate pre a n b post) record).commands
        = [Text.strip (a ++ v ++ b)] ∧
      ∀ o, runner 0 (Text.strip (a ++ v ++ b)) = .ok o →
        (expand s runner (commandTemplate pre a n b post) record).result
          = .ok (pre ++ o.inlined ++ post)) ↔
      openBraces (b.head?.getD '}') 0 v = some 0 ∧
        (Text.ofNat (n + 1)).length ≤ maxIntegerDigits := by
  have h : FieldInCommand pre a n b post record v := ⟨hpre, ha, hb, hpost, hv, hne, hslash⟩
  constructor
  · rintro ⟨hcommands, _⟩
    have hlen : (Text.ofNat (n + 1)).length ≤ maxIntegerDigits := by
      refine Decidable.byContradiction fun hlen => ?_
      rw [h.commands_of_long s runner hlen] at hcommands
      cases hcommands
    refine ⟨?_, hlen⟩
    cases hopen : openBraces (b.head?.getD '}') 0 v with
    | none =>
      obtain ⟨front, back, later, hsplit, hearly⟩ := h.commands_of_early s runner hlen hopen
      rw [hearly] at hcommands
      exact absurd (List.cons.inj hcommands).1 (FieldInCommand.strip_ne_of_early hsplit)
    | some depth =>
      cases depth with
      | zero => rfl
      | succ depth =>
        rw [h.commands_of_late s runner hlen hopen] at hcommands
        cases hcommands
  · rintro ⟨hopen, hlen⟩
    exact h.expand_of_own s runner hlen hopen

/-- The runner that answers with the command itself. -/
def repeating : Runner := fun _ command => .ok ⟨command, []⟩

/-- The iff at `a{!echo {1}.}b` with a value that opens a brace, which is guarded. -/
theorem command_of_field_guarded :
    let v : Text := ['{', 'x']
    Text.Inert "a" ∧ Text.Inert "echo " ∧ Text.Inert "." ∧ Text.Inert "b" ∧
    [v][0]? = some v ∧ v ≠ [] ∧ ('\\' : CodePoint) ∉ v ∧
    (((expand .standard repeating (commandTemplate "a" "echo " 0 "." "b") [v]).commands
        = [Text.strip ("echo " ++ v ++ ".")] ∧
      ∀ o, repeating 0 (Text.strip ("echo " ++ v ++ ".")) = .ok o →
        (expand .standard repeating (commandTemplate "a" "echo " 0 "." "b") [v]).result
          = .ok ("a" ++ o.inlined ++ "b")) ↔
      openBraces (("." : Text).head?.getD '}') 0 v = some 0 ∧
        (Text.ofNat (0 + 1)).length ≤ maxIntegerDigits) :=
  ⟨by decide, by decide, by decide, by decide, by decide, by decide, by decide,
    command_of_field_iff .standard repeating [['{', 'x']] (by decide) (by decide) (by decide)
      (by decide) (by decide) (by decide) (by decide)⟩

/-- **A value can end a command**: with a closing brace for the field of `{!echo {1}.}`, the command
    is not `echo }.`. -/
theorem value_ends_command :
    let v : Text := ['}']
    Text.Inert [] ∧ Text.Inert "echo " ∧ Text.Inert "." ∧
    [v][0]? = some v ∧ v ≠ [] ∧ ('\\' : CodePoint) ∉ v ∧
    (expand .standard repeating (commandTemplate [] "echo " 0 "." []) [v]).commands
      ≠ [Text.strip ("echo " ++ v ++ ".")] := by
  have h : FieldInCommand [] "echo " 0 "." [] [['}']] ['}'] := by constructor <;> decide
  refine ⟨h.pre, h.inner, h.tail, h.value, h.nonempty, h.noBackslash, fun hcommands => ?_⟩
  obtain ⟨front, back, later, hsplit, hearly⟩ :=
    h.commands_of_early .standard repeating (by decide) (by decide)
  rw [hearly] at hcommands
  exact FieldInCommand.strip_ne_of_early hsplit (List.cons.inj hcommands).1

end GraphFeed
