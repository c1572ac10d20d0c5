import GraphFeed.Proofs.Nesting
import GraphFeed.Template.Expansion

/-!
# Fallbacks

The fallback of a placeholder is what its interior ends with, behind a question mark
(`parse_fallback`), so the cells that take the place of the placeholder are cells of the interior
(`fallbackCells_eq`). Two things follow from the question mark and from the braces of the interior:

* what stands before the fallback is no backslash (`fallback_split`);
* a brace with which the fallback ends is escaped by a backslash of the fallback itself
  (`fallback_brace`), so no placeholder opens inside a fallback and closes behind it.
-/

namespace GraphFeed

namespace Placeholder

/-! ## 1. What is read is a first part -/

theorem readNumber_suffix {t rest : Text} {n : Nat} (h : readNumber t = .ok (n, rest)) :
    rest <:+ t := by
  simp only [readNumber] at h
  split at h
  · cases h
  · split at h
    · cases h
    · split at h
      · cases h
      · cases h
        exact List.dropWhile_suffix _

theorem readLast_suffix {first : Nat} {t rest : Text} {r : ItemRange}
    (h : readLast first t = .ok (r, rest)) : rest <:+ t := by
  cases t with
  | nil => unfold readLast at h; cases h; exact List.suffix_rfl
  | cons c t =>
    simp only [readLast] at h
    split at h
    · split at h
      · cases hn : readNumber t with
        | error e => rw [hn] at h; cases h
        | ok p =>
          obtain ⟨last, rest'⟩ := p
          rw [hn] at h
          cases h
          exact (readNumber_suffix hn).trans (List.suffix_cons c t)
      · cases h; exact List.suffix_cons c _
    · cases h; exact List.suffix_rfl

theorem readRange_suffix {t rest : Text} {r : ItemRange} (h : readRange t = .ok (r, rest)) :
    rest <:+ t := by
  cases t with
  | nil => cases h
  | cons c t =>
    simp only [readRange] at h
    split at h
    · cases hn : readNumber t with
      | error e => rw [hn] at h; cases h
      | ok p =>
        obtain ⟨last, rest'⟩ := p
        rw [hn] at h
        cases h
        exact (readNumber_suffix hn).trans (List.suffix_cons c t)
    · cases hn : readNumber (c :: t) with
      | error e => rw [hn] at h; cases h
      | ok p =>
        obtain ⟨first, rest'⟩ := p
        rw [hn] at h
        exact (readLast_suffix h).trans (readNumber_suffix hn)

theorem readDelimiter_suffix {t rest : Text} {d : CodePoint} (h : readDelimiter t = .ok (d, rest)) :
    rest <:+ t := by
  unfold readDelimiter at h
  split at h
  · cases h
  · rename_i c t
    split at h
    · split at h
      · cases h
      · rename_i d' rest'
        cases h
        exact (List.suffix_cons d _).trans (List.suffix_cons c _)
    · cases h
      exact List.suffix_cons _ _

theorem readStep_suffix {t rest : Text} {s : SplitStep} (h : readStep t = .ok (s, rest)) :
    rest <:+ t := by
  unfold readStep at h
  cases hd : readDelimiter t with
  | error e => rw [hd] at h; cases h
  | ok p =>
    obtain ⟨d, t₁⟩ := p
    rw [hd] at h
    simp only at h
    cases he : expect ':' t₁ with
    | error e => rw [he] at h; cases h
    | ok t₂ =>
      rw [he] at h
      have h₂ : t₂ <:+ t₁ := by
        unfold expect at he
        split at he
        · cases he
        · split at he
          · cases he; exact List.suffix_cons _ _
          · cases he
      simp only at h
      cases hr : readRange t₂ with
      | error e => rw [hr] at h; cases h
      | ok q =>
        obtain ⟨r, rest'⟩ := q
        rw [hr] at h
        cases h
        exact ((readRange_suffix hr).trans h₂).trans (readDelimiter_suffix hd)

theorem readSteps_suffix (t : Text) : ∀ {steps : List SplitStep} {rest : Text},
    readSteps t = .ok (steps, rest) → rest <:+ t := by
  fun_induction readSteps t with
  | case1 => intro steps rest h; cases h; exact List.suffix_rfl
  | case2 t' refusal hr => intro steps rest h; cases h
  | case3 t' step rest' hr hlt ih =>
    intro steps rest h
    cases hs : readSteps rest' with
    | error e => rw [hs] at h; cases h
    | ok p =>
      obtain ⟨steps', rest''⟩ := p
      rw [hs] at h
      cases h
      exact ((ih hs).trans (readStep_suffix hr)).trans (List.suffix_cons _ t')
  | case4 c t' hc => intro steps rest h; cases h; exact List.suffix_rfl

theorem readMarks_suffix (t : Text) : (readMarks t).2 <:+ t := by
  cases t with
  | nil => exact List.suffix_rfl
  | cons c t =>
    simp only [readMarks]
    split
    · cases t with
      | nil => exact List.nil_suffix
      | cons d rest =>
        simp only
        split
        · exact (List.suffix_cons d rest).trans (List.suffix_cons c _)
        · exact List.suffix_cons c _
    · exact List.suffix_rfl

/-- **A fallback is what its interior ends with, behind a question mark.** -/
theorem parse_fallback {t : Text} {p : Placeholder} (h : parse t = .ok p) :
    p.fallback = [] ∨ (('?' : CodePoint) :: p.fallback) <:+ t := by
  unfold parse at h
  cases hr : read t with
  | error e => rw [hr] at h; cases h
  | ok q =>
    rw [hr] at h
    cases h
    simp only [read] at hr
    cases hf : readRange (readMarks t).2 with
    | error e => rw [hf] at hr; cases hr
    | ok x =>
      obtain ⟨fields, t₂⟩ := x
      rw [hf] at hr
      simp only at hr
      cases hs : readSteps t₂ with
      | error e => rw [hs] at hr; cases hr
      | ok y =>
        obtain ⟨steps, t₃⟩ := y
        rw [hs] at hr
        simp only at hr
        cases hb : readFallback t₃ with
        | error e => rw [hb] at hr; cases hr
        | ok f =>
          rw [hb] at hr
          cases hr
          show f = [] ∨ (('?' : CodePoint) :: f) <:+ t
          cases t₃ with
          | nil => cases hb; exact .inl rfl
          | cons c t₃ =>
            simp only [readFallback] at hb
            split at hb
            · rename_i hc
              cases hb
              right
              rw [← hc]
              exact ((readSteps_suffix t₂ hs).trans (readRange_suffix hf)).trans (readMarks_suffix t)
            · cases hb

/-- The same of an interior that may be empty. -/
theorem ofInterior_fallback {t : Text} {p : Placeholder} (h : ofInterior t = .ok p) :
    p.fallback = [] ∨ (('?' : CodePoint) :: p.fallback) <:+ t.strip := by
  unfold ofInterior at h
  split at h
  · cases h
    exact .inl rfl
  · exact parse_fallback h

/-- A fallback is no longer than its interior. -/
theorem length_fallback_le {t : Text} {p : Placeholder} (h : ofInterior t = .ok p) :
    p.fallback.length ≤ t.length := by
  rcases ofInterior_fallback h with hf | hs
  · rw [hf]
    exact Nat.zero_le _
  · have hlen := hs.length_le
    have hstrip := Text.length_strip_le t
    rw [List.length_cons] at hlen
    omega

end Placeholder

open Buffer (Cell)

/-! ## 2. The cells of a fallback -/

theorem Buffer.Cell.strip_eq (cells : List Cell) :
    ∃ lead trail : List Cell, cells = lead ++ Cell.strip cells ++ trail ∧
      (∀ c ∈ lead, c.char.isBlank = true) ∧ ∀ c ∈ trail, c.char.isBlank = true := by
  let blank : Cell → Bool := fun c => c.char.isBlank
  let left := cells.dropWhile blank
  refine ⟨cells.takeWhile blank, (left.reverse.takeWhile blank).reverse, ?_, ?_, ?_⟩
  · have hright : (left.reverse.dropWhile blank).reverse ++ (left.reverse.takeWhile blank).reverse
        = left := by
      rw [← List.reverse_append, List.takeWhile_append_dropWhile, List.reverse_reverse]
    show cells = cells.takeWhile blank ++ (left.reverse.dropWhile blank).reverse ++ _
    rw [List.append_assoc, hright, List.takeWhile_append_dropWhile]
  · exact fun c hc => List.all_eq_true.mp List.all_takeWhile c hc
  · exact fun c hc => List.all_eq_true.mp List.all_takeWhile c (List.mem_reverse.mp hc)

namespace Placeholder

/-- The cells of a fallback are the last of the stripped interior, marked as of the template. -/
theorem fallbackCells_eq {p : Placeholder} {interior : List Cell} (front back : List Cell)
    (h : Cell.strip interior = front ++ back) (hb : Cell.text back = p.fallback) :
    p.fallbackCells interior = back.map fun c => ⟨c.toLetter, some .trusted⟩ := by
  have horigins : (Cell.strip interior).map (·.origin)
      = front.map (·.origin) ++ back.map (·.origin) := by rw [h, List.map_append]
  have hdrop : (front.map (·.origin) ++ back.map (·.origin)).length - p.fallback.length
      = (front.map (·.origin)).length := by
    rw [← hb, Cell.length_text, List.length_append, List.length_map, List.length_map]
    omega
  simp only [fallbackCells]
  rw [horigins, hdrop, List.drop_left, ← hb, Cell.text, List.zip_map', List.map_map]
  rfl

/-- **The cells of a fallback are cells of the interior**, behind a question mark and before
    nothing but white space. -/
theorem fallback_split {p : Placeholder} {interior : List Cell}
    (hp : ofInterior (Cell.text interior) = .ok p) (ht : ∀ c ∈ interior, c.mark = some .trusted) :
    p.fallback = [] ∨ ∃ front mark trail,
      interior = front ++ mark :: p.fallbackCells interior ++ trail ∧
      mark.char = ('?' : CodePoint) ∧ ∀ c ∈ trail, c.char.isBlank = true := by
  rcases ofInterior_fallback hp with hf | ⟨u, hu⟩
  · exact .inl hf
  right
  rw [← Cell.text_strip, Cell.text] at hu
  obtain ⟨front, tail, hsplit, hfront, htail⟩ := List.map_eq_append_iff.mp hu.symm
  obtain ⟨mark, back, rfl, hmark, hback⟩ := List.map_eq_cons_iff.mp htail
  obtain ⟨lead, trail, hinterior, _, htrail⟩ := Cell.strip_eq interior
  have hcells : p.fallbackCells interior = back := by
    rw [fallbackCells_eq (front ++ [mark]) back (by rw [hsplit]; simp) hback]
    refine (List.map_congr_left fun c hc => ?_).trans (List.map_id' back)
    have hc' : c ∈ interior := by
      rw [hinterior, hsplit]
      simp [hc]
    obtain ⟨l, m⟩ := c
    rw [show m = some .trusted from ht _ hc']
  refine ⟨lead ++ front, mark, trail, ?_, hmark, htrail⟩
  rw [hcells]
  conv => lhs; rw [hinterior, hsplit]
  simp

/-- The cells of a fallback are a part of the interior. -/
theorem fallback_part {p : Placeholder} {interior : List Cell}
    (hp : ofInterior (Cell.text interior) = .ok p)
    (ht : ∀ c ∈ interior, c.mark = some .trusted) :
    ∃ lead tail, interior = lead ++ p.fallbackCells interior ++ tail := by
  rcases fallback_split hp ht with hf | ⟨front, mark, tail, hsplit, _, _⟩
  · refine ⟨[], interior, ?_⟩
    rw [fallbackCells, hf]
    rfl
  · refine ⟨front ++ [mark], tail, ?_⟩
    rwa [List.append_assoc front]

/-- Whatever its marks, a stripped interior ends with its fallback. -/
theorem fallbackCells_of_strip {p : Placeholder} {interior : List Cell}
    (hp : ofInterior (Cell.text interior) = .ok p) :
    ∃ front back, Cell.strip interior = front ++ back ∧ Cell.text back = p.fallback ∧
      p.fallbackCells interior = back.map fun c => ⟨c.toLetter, some .trusted⟩ := by
  have hsuffix : p.fallback <:+ Cell.text (Cell.strip interior) := by
    rw [Cell.text_strip]
    rcases ofInterior_fallback hp with hf | hs
    · rw [hf]; exact List.nil_suffix
    · exact (List.suffix_cons _ _).trans hs
  obtain ⟨u, hu⟩ := hsuffix
  obtain ⟨front, back, hsplit, _, hback⟩ := List.map_eq_append_iff.mp hu.symm
  exact ⟨front, back, hsplit, hback, fallbackCells_eq front back hsplit hback⟩

/-- The cells of a fallback have its text. -/
theorem text_fallbackCells {p : Placeholder} {interior : List Cell}
    (hp : ofInterior (Cell.text interior) = .ok p) : Cell.text (p.fallbackCells interior) = p.fallback := by
  obtain ⟨front, back, _, hback, hcells⟩ := fallbackCells_of_strip hp
  rw [hcells, Cell.text, List.map_map]
  exact hback

/-- **A brace with which a fallback ends is escaped** by a backslash of the fallback. -/
theorem fallback_brace {p : Placeholder} {interior cells : List Cell} {c : Cell}
    (hp : ofInterior (Cell.text interior) = .ok p) (ht : ∀ c ∈ interior, c.mark = some .trusted)
    (hscan : Brace.Level.overAll Cell.token ⟨0, false⟩ interior = some ⟨0, false⟩)
    (hcells : p.fallbackCells interior = cells ++ [c]) (hc : c.char = ('{' : CodePoint)) :
    ∃ cells' y, cells = cells' ++ [y] ∧ y.char = ('\\' : CodePoint) ∧ y.mark = some .trusted := by
  rcases fallback_split hp ht with hf | ⟨front, mark, trail, hi, hmark, htrail⟩
  · have hnil : p.fallbackCells interior = [] := by
      rw [fallbackCells, hf]
      rfl
    rw [hnil] at hcells
    exact absurd hcells.symm (by simp)
  rw [hcells] at hi
  have hclose : ∀ y ∈ trail, y.token ≠ .closing := by
    intro y hy hclosing
    have hblank := htrail y hy
    rw [Cell.char_of_token_closing hclosing] at hblank
    exact absurd hblank (by decide)
  have hi' : interior = (front ++ mark :: cells) ++ c :: trail := by rw [hi]; simp
  rw [hi'] at hscan
  obtain ⟨front', y, hfront, hy⟩ :=
    Brace.escape_before_opening hscan (Cell.token_opening hc) hclose
  obtain ⟨hchar, _, _⟩ := Cell.of_token_escape hy
  -- the backslash is not the question mark, so it is of the fallback
  rcases List.eq_nil_or_concat cells with rfl | ⟨cells', z, rfl⟩
  · obtain ⟨_, rfl⟩ := List.append_inj' hfront rfl |>.imp id List.singleton_inj.mp
    rw [hmark] at hchar
    exact absurd hchar (by decide)
  · rw [List.concat_eq_append] at hcells hfront ⊢
    have hz : z = y := by
      rw [← List.cons_append, ← List.append_assoc] at hfront
      exact List.singleton_inj.mp (List.append_inj' hfront rfl).2
    subst hz
    have hz : z ∈ interior := by
      rw [hi']
      simp
    exact ⟨cells', z, rfl, hchar, ht z hz⟩

end Placeholder

end GraphFeed
