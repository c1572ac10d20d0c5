import GraphFeed.Proofs.Guarding
import GraphFeed.Proofs.Nesting

/-!
# Guarded data in a command

The phase of fields puts a guard in front of every opening brace of data that no exclamation mark
follows. Here is said what such data is to the sweep over commands, when it stands in the interior of
a command placeholder: `shield` tells of each code point of a data text whether it is guarded.

* `guarded_data`: the phase of fields guards data as `shield` says.
* `overAll_shield`: to the scan for a closing brace, what counts of the data is `openBraces`: an
  opening brace with an exclamation mark behind it opens, a closing brace closes.
* `unescapeCommand_strip_written`: in a command the guards are gone.
-/

namespace GraphFeed

open Buffer (Cell)

/-! ## 1. Guarded code points -/

/-- A code point, and whether it has a guard in front. -/
structure Shielded where
  char : CodePoint
  shielded : Bool
deriving DecidableEq

namespace Shielded

/-- The code point, with its guard written. -/
def written (p : Shielded) : Text := if p.shielded then ['\\', p.char] else [p.char]

/-- The cells of a code point of data, with that of its guard. -/
def cells (p : Shielded) : List Cell :=
  if p.shielded then [guardCell, ⟨⟨p.char, none⟩, some .resolved⟩]
  else [⟨⟨p.char, none⟩, some .resolved⟩]

/-- It is no backslash, and only a brace has a guard. -/
def Proper (p : Shielded) : Prop :=
  p.char ≠ ('\\' : CodePoint) ∧ (p.shielded = true → p.char = ('{' : CodePoint))

theorem text_cells (pieces : List Shielded) :
    Cell.text (pieces.flatMap cells) = pieces.flatMap written := by
  induction pieces with
  | nil => rfl
  | cons p pieces ih =>
    rw [List.flatMap_cons, List.flatMap_cons, Cell.text_append, ih]
    congr 1
    obtain ⟨c, shielded⟩ := p
    cases shielded <;> rfl

end Shielded

/-- Which code points of a text are guarded, if `after` follows the text. -/
def shield (after : CodePoint) : Text → List Shielded
  | [] => []
  | c :: v => ⟨c, c = ('{' : CodePoint) && v.head?.getD after ≠ ('!' : CodePoint)⟩ :: shield after v

@[simp] theorem shield_nil (after : CodePoint) : shield after [] = [] := rfl

theorem shield_append (after : CodePoint) (x y : Text) :
    shield after (x ++ y) = shield (y.head?.getD after) x ++ shield after y := by
  induction x with
  | nil => rfl
  | cons c x ih =>
    rw [List.cons_append, shield, ih, shield, List.cons_append]
    cases x <;> rfl

theorem map_char_shield (after : CodePoint) (v : Text) : (shield after v).map (·.char) = v := by
  induction v with
  | nil => rfl
  | cons c v ih => rw [shield, List.map_cons, ih]

theorem proper_shield {after : CodePoint} {v : Text} (h : ('\\' : CodePoint) ∉ v) :
    ∀ p ∈ shield after v, p.Proper := by
  induction v with
  | nil => exact fun p hp => absurd hp List.not_mem_nil
  | cons c v ih =>
    intro p hp
    rcases List.mem_cons.mp hp with rfl | hp
    · refine ⟨fun hc : c = ('\\' : CodePoint) => h (by simp [hc]), fun hs => ?_⟩
      rw [Bool.and_eq_true] at hs
      exact of_decide_eq_true hs.1
    · exact ih (fun hv => h (List.mem_cons_of_mem c hv)) p hp

/-! ## 2. Commands -/

theorem unescapeCommand_written : ∀ {pieces : List Shielded}, (∀ p ∈ pieces, p.Proper) →
    unescapeCommand (pieces.flatMap Shielded.written) = pieces.map (·.char)
  | [], _ => rfl
  | p :: pieces, h => by
    have ih := unescapeCommand_written fun q hq => h q (List.mem_cons_of_mem p hq)
    obtain ⟨hchar, hbrace⟩ := h p List.mem_cons_self
    rw [List.flatMap_cons, List.map_cons, ← ih, Shielded.written]
    cases hs : p.shielded with
    | true =>
      have hline : p.char ≠ ('\n' : CodePoint) := by
        rw [hbrace hs]
        decide
      exact unescapeCommand_backslash hline _
    | false => exact unescapeCommand_cons hchar _

/-- White space is the same with guards and without, as long as a piece that is no white space does
    not begin with any. -/
theorem dropWhile_flatMap {f : Shielded → Text} : ∀ {pieces : List Shielded},
    (∀ p ∈ pieces, f p = [p.char] ∨
      p.char.isBlank = false ∧ ∃ x t, f p = x :: t ∧ x.isBlank = false) →
    (pieces.flatMap f).dropWhile CodePoint.isBlank
      = (pieces.dropWhile (·.char.isBlank)).flatMap f
  | [], _ => rfl
  | p :: pieces, h => by
    have ih := dropWhile_flatMap fun q hq => h q (List.mem_cons_of_mem p hq)
    rw [List.flatMap_cons]
    rcases h p List.mem_cons_self with hp | ⟨hblank, x, t, hp, hx⟩
    · cases hblank : p.char.isBlank with
      | true =>
        have hdrop : (p :: pieces).dropWhile (·.char.isBlank)
            = pieces.dropWhile (·.char.isBlank) := List.dropWhile_cons_of_pos hblank
        rw [hp, List.singleton_append, List.dropWhile_cons_of_pos hblank, hdrop, ih]
      | false =>
        have hkeep : (p :: pieces).dropWhile (·.char.isBlank) = p :: pieces :=
          List.dropWhile_cons_of_neg (by simp [hblank])
        rw [hp, List.singleton_append, List.dropWhile_cons_of_neg (by simp [hblank]), hkeep,
          List.flatMap_cons, hp, List.singleton_append]
    · rw [hp, List.cons_append, List.dropWhile_cons_of_neg (by simp [hx]),
        List.dropWhile_cons_of_neg (by simp [hblank]), List.flatMap_cons, hp, List.cons_append]

/-- What a proper piece is written as begins with white space only if it is all of it. -/
theorem Shielded.Proper.written_cases {p : Shielded} (h : p.Proper) :
    p.written = [p.char] ∨ p.char.isBlank = false ∧ p.written = [('\\' : CodePoint), p.char] := by
  cases hs : p.shielded with
  | true =>
    rw [Shielded.written, if_pos hs]
    refine .inr ⟨?_, rfl⟩
    rw [h.2 hs]
    decide
  | false =>
    rw [Shielded.written, hs]
    exact .inl rfl

/-- Stripping a text with its guards strips the same code points. -/
theorem strip_written {pieces : List Shielded} (h : ∀ p ∈ pieces, p.Proper) :
    ∃ kept : List Shielded, (∀ p ∈ kept, p.Proper) ∧
      Text.strip (pieces.flatMap Shielded.written) = kept.flatMap Shielded.written ∧
      Text.strip (pieces.map (·.char)) = kept.map (·.char) := by
  let left := pieces.dropWhile (·.char.isBlank)
  have hleft : ∀ p ∈ left, p.Proper := fun p hp => h p ((List.dropWhile_sublist _).subset hp)
  have hwritten : (pieces.flatMap Shielded.written).dropWhile CodePoint.isBlank
      = left.flatMap Shielded.written := by
    refine dropWhile_flatMap fun p hp => ?_
    rcases (h p hp).written_cases with hw | ⟨hblank, hw⟩
    · exact .inl hw
    · exact .inr ⟨hblank, _, _, hw, by decide⟩
  have hreverse : (left.reverse.flatMap (List.reverse ∘ Shielded.written)).dropWhile CodePoint.isBlank
      = (left.reverse.dropWhile (·.char.isBlank)).flatMap (List.reverse ∘ Shielded.written) := by
    refine dropWhile_flatMap fun p hp => ?_
    rcases (hleft p (List.mem_reverse.mp hp)).written_cases with hw | ⟨hblank, hw⟩
    · exact .inl (by rw [Function.comp_apply, hw]; rfl)
    · exact .inr ⟨hblank, p.char, [('\\' : CodePoint)], by rw [Function.comp_apply, hw]; rfl, hblank⟩
  refine ⟨(left.reverse.dropWhile (·.char.isBlank)).reverse, fun p hp => ?_, ?_, ?_⟩
  · exact hleft p (List.mem_reverse.mp ((List.dropWhile_sublist _).subset (List.mem_reverse.mp hp)))
  · rw [Text.strip, Text.stripLeft, Text.stripRight, hwritten, List.reverse_flatMap, hreverse,
      List.reverse_flatMap]
    congr 1
    funext p
    exact List.reverse_reverse _
  · simp only [Text.strip, Text.stripLeft, Text.stripRight, List.dropWhile_map, ← List.map_reverse]
    rfl

/-- **In a command the guards are gone**, and nothing else of a text without a backslash is. -/
theorem unescapeCommand_strip_written {pieces : List Shielded} (h : ∀ p ∈ pieces, p.Proper) :
    unescapeCommand (Text.strip (pieces.flatMap Shielded.written)) = Text.strip (pieces.map (·.char)) := by
  obtain ⟨kept, hkept, hwritten, hchars⟩ := strip_written h
  rw [hwritten, hchars, unescapeCommand_written hkept]

/-! ## 3. The closing brace -/

/-- How many braces are open behind a data text in the interior of a command placeholder, if `depth`
    are open before it and `after` follows it. The phase of fields has guarded the opening braces but
    those before an exclamation mark; nothing guards a closing brace. There is no answer if one of
    them closes the placeholder itself. -/
def openBraces (after : CodePoint) (depth : Nat) : Text → Option Nat
  | [] => some depth
  | c :: v =>
    if c = ('{' : CodePoint) then
      openBraces after (if v.head?.getD after = ('!' : CodePoint) then depth + 1 else depth) v
    else if c = ('}' : CodePoint) then
      if depth = 0 then none else openBraces after (depth - 1) v
    else openBraces after depth v

/-- **To the scan for a closing brace, guarded data is its `openBraces`.** -/
theorem overAll_shield {after : CodePoint} : ∀ {v : Text} {depth : Nat}, ('\\' : CodePoint) ∉ v →
    Brace.Level.overAll Cell.token ⟨depth, false⟩ ((shield after v).flatMap Shielded.cells)
      = (openBraces after depth v).map (⟨·, false⟩)
  | [], _, _ => rfl
  | c :: v, depth, h => by
    have hv : ('\\' : CodePoint) ∉ v := fun hm => h (List.mem_cons_of_mem c hm)
    have hc : c ≠ ('\\' : CodePoint) := fun hc => h (by simp [hc])
    have plain : ∀ {l : Brace.Level}, (Brace.Level.overAll Cell.token l
        (Shielded.cells ⟨c, false⟩)) = l.over (Cell.token ⟨⟨c, none⟩, some .resolved⟩) :=
      Brace.overAll_singleton _ _ _
    rw [shield, List.flatMap_cons, Brace.overAll_append, openBraces]
    by_cases hopen : c = ('{' : CodePoint)
    · have htoken : Cell.token ⟨⟨c, none⟩, some .resolved⟩ = .opening := Cell.token_opening hopen
      rw [if_pos hopen]
      by_cases hnext : v.head?.getD after = ('!' : CodePoint)
      · rw [if_pos hnext, ← overAll_shield hv, decide_eq_true hopen, hnext]
        show (Brace.Level.overAll Cell.token ⟨depth, false⟩ (Shielded.cells ⟨c, false⟩)).bind _ = _
        rw [plain, htoken]
        rfl
      · rw [if_neg hnext, ← overAll_shield hv, decide_eq_true hopen, Bool.true_and,
          decide_eq_true hnext]
        -- the guard is an active backslash
        have hguard : Brace.Level.over ⟨depth, false⟩ guardCell.token = some ⟨depth, true⟩ := rfl
        show (Brace.Level.overAll Cell.token ⟨depth, false⟩
          (guardCell :: Shielded.cells ⟨c, false⟩)).bind _ = _
        rw [Brace.overAll_cons, hguard, Option.bind_some, plain, htoken]
        rfl
    · rw [if_neg hopen, decide_eq_false hopen, Bool.false_and, plain]
      by_cases hclose : c = ('}' : CodePoint)
      · rw [if_pos hclose, Cell.token_closing hclose]
        cases depth with
        | zero => rfl
        | succ depth =>
          rw [if_neg (Nat.succ_ne_zero depth), Nat.add_sub_cancel, ← overAll_shield hv]
          rfl
      · rw [if_neg hclose, Cell.token_plain hc hopen hclose, ← overAll_shield hv]
        rfl

/-- Where a data text closes the placeholder it stands in, an end of it is behind the closing
    brace. -/
theorem openBraces_eq_none {after : CodePoint} : ∀ {v : Text} {depth : Nat},
    openBraces after depth v = none →
      ∃ front back, v = front ++ ('}' : CodePoint) :: back ∧
        openBraces '}' depth front = some 0
  | [], _, h => by cases h
  | c :: v, depth, h => by
    rw [openBraces] at h
    split at h
    · rename_i hopen
      obtain ⟨front, back, rfl, hfront⟩ := openBraces_eq_none h
      have hnext : (front ++ ('}' : CodePoint) :: back).head?.getD after
          = front.head?.getD ('}' : CodePoint) := by
        cases front <;> rfl
      rw [hnext] at hfront
      exact ⟨c :: front, back, rfl, by rw [openBraces, if_pos hopen]; exact hfront⟩
    · rename_i hopen
      split at h
      · rename_i hclose
        split at h
        · rename_i hzero
          exact ⟨[], v, by rw [hclose]; rfl, by rw [hzero]; rfl⟩
        · rename_i hdepth
          obtain ⟨front, back, rfl, hfront⟩ := openBraces_eq_none h
          refine ⟨c :: front, back, rfl, ?_⟩
          rw [openBraces, if_neg hopen, if_pos hclose, if_neg hdepth]
          exact hfront
      · rename_i hclose
        obtain ⟨front, back, rfl, hfront⟩ := openBraces_eq_none h
        refine ⟨c :: front, back, rfl, ?_⟩
        rw [openBraces, if_neg hopen, if_neg hclose]
        exact hfront

/-! ## 4. The phase of fields -/

variable {phase : Phase} {before : Option Cell}

/-- Cells without a brace get no guard. -/
theorem guarded_of_noBrace : ∀ {cells : List Cell} {before : Option Cell},
    (∀ c ∈ cells, c.char ≠ ('{' : CodePoint)) → guarded phase before cells = cells
  | [], _, _ => rfl
  | c :: cells, before, h => by
    rw [guarded, if_neg, guarded_of_noBrace fun d hd => h d (List.mem_cons_of_mem c hd)]
    rw [Phase.live_eq_false_of_ne (h c List.mem_cons_self)]
    exact Bool.false_ne_true

/-- A cell that is no live brace gets no guard. -/
theorem guarded_cons {c : Cell} {cells : List Cell} (h : phase.live before c cells.head? = false) :
    guarded phase before (c :: cells) = c :: guarded phase (some c) cells := by
  rw [guarded, if_neg]
  rw [h]
  exact Bool.false_ne_true

/-- Nor do cells without a brace in front of others. -/
theorem guarded_append : ∀ {front back : List Cell} {before : Option Cell},
    (∀ c ∈ front, c.char ≠ ('{' : CodePoint)) →
      guarded phase before (front ++ back)
        = front ++ guarded phase (front.getLast?.or before) back
  | [], _, _, _ => rfl
  | c :: front, back, before, h => by
    rw [List.cons_append, guarded_cons (Phase.live_eq_false_of_ne (h c List.mem_cons_self)),
      guarded_append fun d hd => h d (List.mem_cons_of_mem c hd), List.cons_append, List.getLast?_cons]
    cases front.getLast? <;> rfl

/-- **The phase of fields guards data as `shield` says.** -/
theorem guarded_data {r : Cell} {rest : List Cell}
    (hrest : ∀ c ∈ r :: rest, c.char ≠ ('{' : CodePoint)) : ∀ {v : Text} {before : Option Cell},
    ('\\' : CodePoint) ∉ v → (∀ b ∈ before, b.char ≠ ('\\' : CodePoint)) →
      guarded .fields before (Cell.ofText .resolved v ++ r :: rest)
        = (shield r.char v).flatMap Shielded.cells ++ r :: rest
  | [], _, _, _ => guarded_of_noBrace hrest
  | c :: v, before, hv, hbefore => by
    have hc : c ≠ ('\\' : CodePoint) := fun hc => hv (by simp [hc])
    have ih : guarded .fields (some ⟨⟨c, none⟩, some .resolved⟩) (Cell.ofText .resolved v ++ r :: rest)
        = (shield r.char v).flatMap Shielded.cells ++ r :: rest :=
      guarded_data hrest (fun hm => hv (List.mem_cons_of_mem c hm)) (by rintro b ⟨⟩; exact hc)
    have hcons : Cell.ofText .resolved (c :: v) ++ r :: rest
        = ⟨⟨c, none⟩, some .resolved⟩ :: (Cell.ofText .resolved v ++ r :: rest) := rfl
    rw [hcons, shield, List.flatMap_cons, List.append_assoc, ← ih]
    by_cases hopen : c = ('{' : CodePoint)
    · obtain ⟨d, hd, hchar⟩ : ∃ d, (Cell.ofText .resolved v ++ r :: rest).head? = some d ∧
          d.char = v.head?.getD r.char := by
        cases v with
        | nil => exact ⟨r, rfl, rfl⟩
        | cons x v => exact ⟨⟨⟨x, none⟩, some .resolved⟩, rfl, rfl⟩
      have hlive : Phase.fields.live before ⟨⟨c, none⟩, some .resolved⟩
          (Cell.ofText .resolved v ++ r :: rest).head? = decide (v.head?.getD r.char ≠ ('!' : CodePoint)) := by
        rw [hd, Phase.live, Phase.isLive_unescaped hbefore hopen, hchar]
        rfl
      rw [guarded, hlive, decide_eq_true hopen, Bool.true_and]
      cases decide (v.head?.getD r.char ≠ ('!' : CodePoint)) <;> rfl
    · rw [guarded_cons (Phase.live_eq_false_of_ne hopen), decide_eq_false hopen, Bool.false_and]
      rfl

end GraphFeed
