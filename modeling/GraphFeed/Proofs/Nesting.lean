import GraphFeed.Template.Brace

/-!
# The interior of a placeholder

`Brace.scan` finds a closing brace; here it is said of the interior alone what makes a scan stop
behind it. A `Level` is how deep braces are nested and whether a backslash is active. Each item
leads from one level to the next (`Level.over`), except a closing brace that closes what was opened
first. A scan finds an interior exactly if the interior leads back to the level it began at and a
closing brace follows (`scan_eq_closed_iff`).

* `overAll_append` takes an interior apart.
* `escape_before_opening`: an opening brace behind which nothing is closed is escaped.
* `exists_closing`: what leads below a level holds the brace that closes it.
* `scan_map`: a scan does not depend on how items are written.
-/

namespace GraphFeed.Brace

variable {α β : Type}

/-! ## 1. Levels -/

/-- How many braces are open, and whether the next item is escaped. -/
structure Level where
  depth : Nat
  escaped : Bool
deriving DecidableEq, Repr

/-- The level behind an item, if the item does not end the scan. -/
def Level.over (l : Level) : Token → Option Level
  | .unknown => none
  | .escape => some ⟨l.depth, !l.escaped⟩
  | .plain => some ⟨l.depth, false⟩
  | .opening => some ⟨if l.escaped then l.depth else l.depth + 1, false⟩
  | .closing =>
    if l.escaped then some ⟨l.depth, false⟩
    else
      match l.depth with
      | 0 => none
      | depth + 1 => some ⟨depth, false⟩

/-- The level behind items, if none of them ends the scan. -/
def Level.overAll (token : α → Token) (l : Level) (items : List α) : Option Level :=
  items.foldlM (fun l x => l.over (token x)) l

@[simp] theorem overAll_nil (token : α → Token) (l : Level) : l.overAll token [] = some l := rfl

theorem overAll_cons (token : α → Token) (l : Level) (x : α) (items : List α) :
    l.overAll token (x :: items) = (l.over (token x)).bind fun l => l.overAll token items := rfl

theorem overAll_singleton (token : α → Token) (l : Level) (x : α) :
    l.overAll token [x] = l.over (token x) := by
  rw [overAll_cons]
  cases l.over (token x) <;> rfl

theorem overAll_append (token : α → Token) (l : Level) (a b : List α) :
    l.overAll token (a ++ b) = (l.overAll token a).bind fun l => l.overAll token b :=
  List.foldlM_append

/-! ## 2. Scans -/

/-- The scan goes on over an item that does not end it. -/
theorem scan_cons_of_over {token : α → Token} {l l' : Level} {x : α} {items : List α}
    (h : l.over (token x) = some l') :
    scan token l.depth l.escaped (x :: items) = (scan token l'.depth l'.escaped items).push x := by
  obtain ⟨depth, escaped⟩ := l
  cases hx : token x with
  | unknown =>
    rw [hx] at h
    cases h
  | escape | plain | opening =>
    rw [hx] at h
    cases h
    simp only [scan, hx]
  | closing =>
    rw [hx] at h
    simp only [scan, hx]
    cases escaped with
    | true =>
      cases h
      rfl
    | false =>
      cases depth with
      | zero => cases h
      | succ depth =>
        cases h
        rfl

/-- An item ends the scan where it closes what was opened first, or is not known. -/
theorem scan_cons_of_over_none {token : α → Token} {l : Level} {x : α} (items : List α)
    (h : l.over (token x) = none) :
    (token x = .closing ∧ l = ⟨0, false⟩ ∧
      scan token l.depth l.escaped (x :: items) = .closed [] items) ∨
    scan token l.depth l.escaped (x :: items) = .unknown := by
  obtain ⟨depth, escaped⟩ := l
  cases hx : token x with
  | unknown =>
    right
    simp only [scan, hx]
  | escape | plain | opening =>
    rw [hx] at h
    cases h
  | closing =>
    left
    rw [hx] at h
    cases escaped with
    | true => cases h
    | false =>
      cases depth with
      | zero => exact ⟨rfl, rfl, by simp only [scan, hx]; rfl⟩
      | succ depth => cases h

theorem scan_append_closed {token : α → Token} {close : α} {after : List α}
    (hc : token close = .closing) : ∀ {interior : List α} {l : Level},
    l.overAll token interior = some ⟨0, false⟩ →
      scan token l.depth l.escaped (interior ++ close :: after) = .closed interior after
  | [], l, h => by
    cases h
    simp only [List.nil_append, scan, hc]
    rfl
  | x :: interior, l, h => by
    rw [overAll_cons, Option.bind_eq_some_iff] at h
    obtain ⟨l', hx, hrest⟩ := h
    rw [List.cons_append, scan_cons_of_over hx, scan_append_closed hc hrest]
    rfl

theorem overAll_of_scan_closed {token : α → Token} {after : List α} :
    ∀ {items interior : List α} {l : Level},
      scan token l.depth l.escaped items = .closed interior after →
        ∃ close, items = interior ++ close :: after ∧ token close = .closing ∧
          l.overAll token interior = some ⟨0, false⟩
  | [], interior, l, h => by cases h
  | x :: items, interior, l, h => by
    cases hx : l.over (token x) with
    | some l' =>
      rw [scan_cons_of_over hx] at h
      obtain ⟨interior, rfl, hrest⟩ := Found.push_closed h
      obtain ⟨close, rfl, hc, hi⟩ := overAll_of_scan_closed hrest
      exact ⟨close, rfl, hc, by rw [overAll_cons, hx]; exact hi⟩
    | none =>
      obtain ⟨hc, rfl, hs⟩ | hs := scan_cons_of_over_none items hx
      · rw [hs] at h
        cases h
        exact ⟨x, rfl, hc, rfl⟩
      · rw [hs] at h
        cases h

/-- **A scan finds an interior exactly if the interior leads back to where it began, and a closing
    brace follows.** -/
theorem scan_eq_closed_iff {token : α → Token} {l : Level} {items interior after : List α} :
    scan token l.depth l.escaped items = .closed interior after ↔
      ∃ close, items = interior ++ close :: after ∧ token close = .closing ∧
        l.overAll token interior = some ⟨0, false⟩ := by
  constructor
  · exact overAll_of_scan_closed
  · rintro ⟨close, rfl, hc, hi⟩
    exact scan_append_closed hc hi

/-- **A scan finds no closing brace if no item ends it.** -/
theorem scan_eq_unterminated {token : α → Token} : ∀ {items : List α} {l l' : Level},
    l.overAll token items = some l' → scan token l.depth l.escaped items = .unterminated
  | [], _, _, _ => rfl
  | x :: items, l, l', h => by
    rw [overAll_cons, Option.bind_eq_some_iff] at h
    obtain ⟨m, hx, hrest⟩ := h
    rw [scan_cons_of_over hx, scan_eq_unterminated hrest]
    rfl

/-- A scan over items of known classes is not stopped by one of unknown class. -/
theorem scan_ne_unknown {token : α → Token} : ∀ {items : List α} {depth : Nat} {escaped : Bool},
    (∀ x ∈ items, token x ≠ .unknown) → scan token depth escaped items ≠ .unknown
  | [], _, _, _, h => by cases h
  | x :: items, depth, escaped, hx, h => by
    have push : ∀ {depth : Nat} {escaped : Bool},
        (scan token depth escaped items).push x ≠ .unknown := by
      intro depth escaped hp
      have ih : scan token depth escaped items ≠ .unknown :=
        scan_ne_unknown fun y hy => hx y (List.mem_cons_of_mem x hy)
      cases hs : scan token depth escaped items with
      | closed interior after => rw [hs] at hp; cases hp
      | unterminated => rw [hs] at hp; cases hp
      | unknown => exact ih hs
    simp only [scan] at h
    split at h
    · rename_i hu
      exact hx x List.mem_cons_self hu
    · exact push h
    · exact push h
    · exact push h
    · split at h
      · exact push h
      · split at h
        · cases h
        · exact push h

/-! ## 3. Items of other kinds -/

/-- The same, with other items. -/
def Found.map (f : α → β) : Found α → Found β
  | .closed interior after => .closed (interior.map f) (after.map f)
  | .unterminated => .unterminated
  | .unknown => .unknown

theorem Found.map_push (f : α → β) (x : α) (found : Found α) :
    (found.push x).map f = (found.map f).push (f x) := by
  cases found <;> rfl

/-- **A scan looks at nothing but the classes of items.** -/
theorem scan_map {token : α → Token} {token' : β → Token} {f : α → β} :
    ∀ {items : List α} {depth : Nat} {escaped : Bool},
      (∀ x ∈ items, token' (f x) = token x) →
        scan token' depth escaped (items.map f) = (scan token depth escaped items).map f
  | [], _, _, _ => rfl
  | x :: items, depth, escaped, h => by
    have ih : ∀ {depth : Nat} {escaped : Bool},
        scan token' depth escaped (items.map f) = (scan token depth escaped items).map f :=
      scan_map fun y hy => h y (List.mem_cons_of_mem x hy)
    simp only [List.map_cons, scan, h x List.mem_cons_self]
    split
    · rfl
    · rw [ih, Found.map_push]
    · rw [ih, Found.map_push]
    · rw [ih, Found.map_push]
    · split
      · rw [ih, Found.map_push]
      · split
        · rfl
        · rw [ih, Found.map_push]

/-! ## 4. Braces in an interior -/

/-- Items that close nothing lead to no lower level. -/
theorem depth_le_of_noClosing {token : α → Token} : ∀ {items : List α} {l l' : Level},
    (∀ x ∈ items, token x ≠ .closing) → l.overAll token items = some l' → l.depth ≤ l'.depth
  | [], l, l', _, h => by cases h; exact Nat.le_refl _
  | x :: items, l, l', hx, h => by
    rw [overAll_cons, Option.bind_eq_some_iff] at h
    obtain ⟨m, hm, hrest⟩ := h
    refine Nat.le_trans ?_ (depth_le_of_noClosing (fun y hy => hx y (List.mem_cons_of_mem x hy)) hrest)
    have hne := hx x List.mem_cons_self
    unfold Level.over at hm
    split at hm
    · cases hm
    · cases hm; exact Nat.le_refl _
    · cases hm; exact Nat.le_refl _
    · cases hm
      show l.depth ≤ if l.escaped then l.depth else l.depth + 1
      split
      · exact Nat.le_refl _
      · exact Nat.le_succ _
    · rename_i hc
      exact absurd hc hne

/-- An item is escaped only directly behind a backslash. -/
theorem escaped_behind {token : α → Token} {items : List α} {l' : Level}
    (h : Level.overAll token ⟨0, false⟩ items = some l') (he : l'.escaped = true) :
    ∃ front y, items = front ++ [y] ∧ token y = .escape := by
  rcases List.eq_nil_or_concat items with rfl | ⟨front, y, rfl⟩
  · cases h
    cases he
  · refine ⟨front, y, List.concat_eq_append, ?_⟩
    rw [List.concat_eq_append, overAll_append, Option.bind_eq_some_iff] at h
    obtain ⟨m, _, hy⟩ := h
    rw [overAll_cons, Option.bind_eq_some_iff] at hy
    obtain ⟨n, hn, hlast⟩ := hy
    cases hlast
    unfold Level.over at hn
    split at hn
    · cases hn
    · assumption
    · cases hn; cases he
    · cases hn; cases he
    · split at hn
      · cases hn; cases he
      · split at hn
        · cases hn
        · cases hn; cases he

/-- **An opening brace of an interior behind which nothing is closed is escaped**, by the item
    before it. -/
theorem escape_before_opening {token : α → Token} {front back : List α} {x : α}
    (h : Level.overAll token ⟨0, false⟩ (front ++ x :: back) = some ⟨0, false⟩)
    (hx : token x = .opening) (hback : ∀ y ∈ back, token y ≠ .closing) :
    ∃ front' y, front = front' ++ [y] ∧ token y = .escape := by
  rw [overAll_append, Option.bind_eq_some_iff] at h
  obtain ⟨l, hl, hrest⟩ := h
  rw [overAll_cons, Option.bind_eq_some_iff, hx] at hrest
  obtain ⟨m, hm, hback'⟩ := hrest
  have hdepth := depth_le_of_noClosing hback hback'
  cases he : l.escaped with
  | true => exact escaped_behind hl he
  | false =>
    rw [Level.over, he] at hm
    cases hm
    exact absurd hdepth (Nat.not_succ_le_zero _)

/-- **What leads below a level closes the brace that led to it**: up to there the items are the
    interior of that brace. -/
theorem exists_closing {token : α → Token} :
    ∀ {items : List α} {d k : Nat} {escaped : Bool} {l' : Level},
      Level.overAll token ⟨d + 1 + k, escaped⟩ items = some l' → l'.depth ≤ d →
        ∃ interior close after, items = interior ++ close :: after ∧ token close = .closing ∧
          Level.overAll token ⟨k, escaped⟩ interior = some ⟨0, false⟩
  | [], d, k, escaped, l', h, hl => by
    cases h
    have hdepth : d + 1 + k ≤ d := hl
    omega
  | x :: items, d, k, escaped, l', h, hl => by
    rw [overAll_cons, Option.bind_eq_some_iff] at h
    obtain ⟨m, hm, hrest⟩ := h
    have onward : ∀ {k' : Nat} {e : Bool}, m = ⟨d + 1 + k', e⟩ →
        Level.over ⟨k, escaped⟩ (token x) = some ⟨k', e⟩ →
          ∃ interior close after, x :: items = interior ++ close :: after ∧ token close = .closing ∧
            Level.overAll token ⟨k, escaped⟩ interior = some ⟨0, false⟩ := by
      rintro k' e rfl hx
      obtain ⟨interior, close, after, hsplit, hclose, hlevel⟩ := exists_closing hrest hl
      refine ⟨x :: interior, close, after, by rw [hsplit, List.cons_append], hclose, ?_⟩
      rw [overAll_cons, hx]
      exact hlevel
    cases hx : token x with
    | unknown => rw [hx] at hm; cases hm
    | escape => rw [hx] at hm; cases hm; exact onward rfl (by rw [hx]; rfl)
    | plain => rw [hx] at hm; cases hm; exact onward rfl (by rw [hx]; rfl)
    | opening =>
      rw [hx] at hm
      cases hm
      cases escaped with
      | true => exact onward rfl (by rw [hx]; rfl)
      | false =>
        have hover : Level.over ⟨k, false⟩ (token x) = some ⟨k + 1, false⟩ := by rw [hx]; rfl
        exact onward (by rfl) hover
    | closing =>
      rw [hx] at hm
      cases escaped with
      | true => cases hm; exact onward rfl (by rw [hx]; rfl)
      | false =>
        cases k with
        | zero => exact ⟨[], x, items, rfl, hx, rfl⟩
        | succ k => cases hm; exact onward rfl (by rw [hx]; rfl)

end GraphFeed.Brace
