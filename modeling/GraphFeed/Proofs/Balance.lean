import GraphFeed.Proofs.Nesting

/-!
# Which brace closes a placeholder

What may stand between the opening and the closing brace of a placeholder is a sequence of items: an
active backslash with the code point behind it, whatever that is; any other code point that is no
brace; or again items between an opening and a closing brace. `Items` is this grammar, over the
positions of a text.

* `overAll_of_items`, `items_of_overAll`: **items are just what leads a scan back to the level it
  began at**, on every depth;
* `interior_closes`: the scan finds a closing brace exactly where the grammar has one, which is one
  place at most. It looks at nothing behind that place, and if there is none, it refuses the text
  from the opening brace on.
-/

namespace GraphFeed.Brace

/-! ## 1. The grammar -/

/-- The code points from position `i` to before position `j` are items. A backslash at a position
    where `literal` holds is not active. -/
inductive Items (t : Text) (literal : Int → Bool) : Nat → Nat → Prop
  | done (i : Nat) : Items t literal i i
  /-- An active backslash and the code point behind it. -/
  | escaped {i j : Nat} {c : CodePoint} (hslash : t[i]? = some ('\\' : CodePoint))
      (hactive : literal i = false) (hnext : t[i + 1]? = some c) (hrest : Items t literal (i + 2) j) :
      Items t literal i j
  /-- A single code point. -/
  | single {i j : Nat} {c : CodePoint} (hc : t[i]? = some c) (hopen : c ≠ ('{' : CodePoint))
      (hclose : c ≠ ('}' : CodePoint)) (hslash : c = ('\\' : CodePoint) → literal i = true)
      (hrest : Items t literal (i + 1) j) : Items t literal i j
  /-- Items in braces. -/
  | group {i k j : Nat} (hopen : t[i]? = some ('{' : CodePoint)) (hinner : Items t literal (i + 1) k)
      (hclose : t[k]? = some ('}' : CodePoint)) (hrest : Items t literal (k + 1) j) :
      Items t literal i j

/-- The placeholder that is opened at `openAt` is closed at `e`. -/
structure Closes (t : Text) (literal : Int → Bool) (openAt e : Nat) : Prop where
  brace : t[e]? = some ('}' : CodePoint)
  items : Items t literal (openAt + 1) e

variable {t t' : Text} {literal literal' : Int → Bool} {i j : Nat}

namespace Items

theorem le (h : Items t literal i j) : i ≤ j := by
  induction h with
  | done => exact Nat.le_refl _
  | escaped _ _ _ _ ih => omega
  | single _ _ _ _ _ ih => omega
  | group _ _ _ _ ihinner ihrest => omega

/-- Items depend on nothing behind them. -/
theorem of_agrees (h : Items t literal i j) (htext : ∀ k < j, t'[k]? = t[k]?)
    (hliteral : ∀ k < j, literal' (k : Nat) = literal (k : Nat)) : Items t' literal' i j := by
  induction h with
  | done i => exact .done i
  | @escaped i j c hslash hactive hnext hrest ih =>
    have hle := hrest.le
    refine .escaped (c := c) ?_ ?_ ?_ (ih htext hliteral)
    · rw [htext i (by omega), hslash]
    · rw [hliteral i (by omega), hactive]
    · rw [htext (i + 1) (by omega), hnext]
  | @single i j c hc hopen hclose hslash hrest ih =>
    have hle := hrest.le
    refine .single (c := c) ?_ hopen hclose ?_ (ih htext hliteral)
    · rw [htext i (by omega), hc]
    · rw [hliteral i (by omega)]
      exact hslash
  | @group i k j hopen hinner hclose hrest ihinner ihrest =>
    have hle := hinner.le
    have hle' := hrest.le
    refine .group (k := k) ?_ ?_ ?_ (ihrest htext hliteral)
    · rw [htext i (by omega), hopen]
    · exact ihinner (fun m hm => htext m (by omega)) fun m hm => hliteral m (by omega)
    · rw [htext k (by omega), hclose]

end Items

theorem Closes.lt_length {openAt e : Nat} (h : Closes t literal openAt e) : e < t.length :=
  (List.getElem?_eq_some_iff.mp h.brace).1

/-! ## 2. Positions as items of a scan -/

/-- The class of the code point at a position. -/
def place (t : Text) (literal : Int → Bool) (i : Nat) : Token :=
  match t[i]? with
  | some c => classify c (literal i)
  | none => .unknown

theorem place_eq {c : CodePoint} (h : t[i]? = some c) :
    place t literal i = classify c (literal i) := by
  rw [place, h]

theorem exists_of_place {token : Token} (h : place t literal i = token) (hknown : token ≠ .unknown) :
    ∃ c, t[i]? = some c ∧ classify c (literal i) = token := by
  unfold place at h
  split at h
  · exact ⟨_, ‹_›, h⟩
  · exact absurd h.symm hknown

theorem classify_eq_escape {c : CodePoint} {isLiteral : Bool} :
    classify c isLiteral = .escape ↔ c = ('\\' : CodePoint) ∧ isLiteral = false := by
  unfold classify
  split
  · rename_i hc
    cases isLiteral with
    | true => exact ⟨nofun, fun h => nomatch h.2⟩
    | false => exact ⟨fun _ => ⟨hc, rfl⟩, fun _ => rfl⟩
  · rename_i hc
    refine ⟨fun h => ?_, fun h => absurd h.1 hc⟩
    repeat' split at h
    all_goals cases h

theorem classify_eq_opening {c : CodePoint} {isLiteral : Bool} :
    classify c isLiteral = .opening ↔ c = ('{' : CodePoint) := by
  constructor
  · intro h
    unfold classify at h
    split at h
    · split at h <;> cases h
    · split at h
      · assumption
      · split at h <;> cases h
  · rintro rfl
    rfl

theorem classify_eq_closing {c : CodePoint} {isLiteral : Bool} :
    classify c isLiteral = .closing ↔ c = ('}' : CodePoint) := by
  constructor
  · intro h
    unfold classify at h
    split at h
    · split at h <;> cases h
    · split at h
      · cases h
      · split at h
        · assumption
        · cases h
  · rintro rfl
    rfl

theorem classify_eq_plain {c : CodePoint} {isLiteral : Bool} :
    classify c isLiteral = .plain ↔ c ≠ ('{' : CodePoint) ∧ c ≠ ('}' : CodePoint) ∧
      (c = ('\\' : CodePoint) → isLiteral = true) := by
  constructor
  · intro h
    refine ⟨?_, ?_, ?_⟩
    · rintro rfl
      cases h
    · rintro rfl
      cases h
    · rintro rfl
      cases isLiteral with
      | true => rfl
      | false => cases h
  · rintro ⟨hopen, hclose, hslash⟩
    unfold classify
    rw [if_neg hopen, if_neg hclose]
    split
    · rename_i hc
      rw [hslash hc]
      rfl
    · rfl

/-- A scan over the positions behind an opening brace is one over what stands there. -/
theorem positions_eq (t : Text) (n : Nat) :
    positions t (n : Int)
      = (List.range' n (t.length - n)).map fun (k : Nat) => ((k : Int), t[k]?) := by
  have hbefore : (-(n : Int)).toNat = 0 := by omega
  rw [positions, hbefore, Int.toNat_natCast]
  refine List.ext_getElem ?_ fun k h₁ h₂ => ?_
  · simp
  · simp only [List.length_map, List.length_range'] at h₂
    have hk : n + k < t.length := by omega
    simp [hk]

/-- So it is whatever function tells the classes, if it tells those of the code points. -/
theorem scan_positions (literal : Int → Bool) {token : Int × Option CodePoint → Token}
    (hsome : ∀ (i : Int) (c : CodePoint), token (i, some c) = classify c (literal i))
    (hnone : ∀ i : Int, token (i, none) = .unknown) (t : Text) (n : Nat) :
    scan token 0 false (positions t (n : Int))
      = (scan (place t literal) 0 false (List.range' n (t.length - n))).map
        fun (k : Nat) => ((k : Int), t[k]?) := by
  have hplace : ∀ k : Nat, token ((k : Int), t[k]?) = place t literal k := by
    intro k
    unfold place
    cases t[k]? with
    | none => exact hnone k
    | some c => exact hsome k c
  rw [positions_eq, scan_map fun k _ => hplace k]

theorem interior_eq (t : Text) (openAt : Nat) (literal : Int → Bool) : interior t openAt literal
    = match scan (place t literal) 0 false (List.range' (openAt + 1) (t.length - (openAt + 1))) with
      | .closed inside _ => .ok ((openAt : Int) + 1, (openAt : Int) + 1 + inside.length)
      | .unterminated => .error (.unterminated (t.drop openAt))
      | .unknown => .error .textIndex := by
  have hslice : Span.slice t (openAt : Int) none = t.drop openAt := by
    have hclamp : Span.clamp t.length (openAt : Int) = min openAt t.length := by
      rw [Span.clamp, if_neg (by omega), Int.toNat_natCast]
    rw [Span.slice, hclamp, List.take_length]
    rcases Nat.le_total openAt t.length with hle | hle
    · rw [Nat.min_eq_left hle]
    · rw [Nat.min_eq_right hle, List.drop_length, List.drop_of_length_le hle]
  have hstart : (openAt : Int) + 1 = ((openAt + 1 : Nat) : Int) := rfl
  rw [interior, hslice, hstart,
    scan_positions literal (fun (_ : Int) (_ : CodePoint) => rfl) (fun (_ : Int) => rfl)]
  cases scan (place t literal) 0 false (List.range' (openAt + 1) (t.length - (openAt + 1))) with
  | closed inside after => simp only [Found.map, List.length_map]
  | unterminated => rfl
  | unknown => rfl

/-! ## 3. Items and levels -/

/-- A run of positions is split at one of them. -/
theorem range'_split {i m y : Nat} {xs ys : List Nat} (h : List.range' i m = xs ++ y :: ys) :
    ∃ k < m, xs = List.range' i k ∧ y = i + k ∧ ys = List.range' (i + k + 1) (m - k - 1) := by
  obtain ⟨k, _, rfl, hbehind⟩ := List.range'_eq_append_iff.mp h
  rw [Nat.mul_one] at hbehind
  obtain ⟨rfl, hpos, rfl⟩ := List.range'_eq_cons_iff.mp hbehind.symm
  exact ⟨k, by omega, rfl, rfl, rfl⟩

section Levels

variable {l : Level} {d m : Nat}

/-- A first position, and those behind it. -/
theorem overAll_range'_succ (l : Level) (i m : Nat) :
    l.overAll (place t literal) (List.range' i (m + 1))
      = (l.over (place t literal i)).bind fun l =>
        l.overAll (place t literal) (List.range' (i + 1) m) := by
  rw [List.range'_succ, overAll_cons]

/-- **Items lead back to the level they began at.** -/
theorem overAll_of_items (h : Items t literal i j) : ∀ d : Nat,
    Level.overAll (place t literal) ⟨d, false⟩ (List.range' i (j - i)) = some ⟨d, false⟩ := by
  induction h with
  | done i =>
    intro d
    rw [Nat.sub_self]
    rfl
  | @escaped i j c hslash hactive hnext hrest ih =>
    intro d
    have hle := hrest.le
    obtain ⟨m, hm⟩ : ∃ m, j - i = m + 1 + 1 := ⟨j - (i + 2), by omega⟩
    have hplace : place t literal i = .escape :=
      (place_eq hslash).trans (classify_eq_escape.mpr ⟨rfl, hactive⟩)
    -- whatever is escaped leaves the depth as it is
    have hover : Level.over ⟨d, true⟩ (place t literal (i + 1)) = some ⟨d, false⟩ := by
      have hknown := classify_ne_unknown c (literal (i + 1 : Nat))
      rw [place_eq hnext]
      revert hknown
      cases classify c (literal (i + 1 : Nat)) with
      | unknown => exact fun h => absurd rfl h
      | _ => exact fun _ => rfl
    have hback := ih d
    rw [show j - (i + 2) = m by omega] at hback
    rw [hm, overAll_range'_succ, hplace]
    show (Level.overAll (place t literal) ⟨d, true⟩ (List.range' (i + 1) (m + 1))) = _
    rw [overAll_range'_succ, hover]
    exact hback
  | @single i j c hc hopen hclose hslash hrest ih =>
    intro d
    have hle := hrest.le
    obtain ⟨m, hm⟩ : ∃ m, j - i = m + 1 := ⟨j - (i + 1), by omega⟩
    have hplace : place t literal i = .plain :=
      (place_eq hc).trans (classify_eq_plain.mpr ⟨hopen, hclose, hslash⟩)
    have hback := ih d
    rw [show j - (i + 1) = m by omega] at hback
    rw [hm, overAll_range'_succ, hplace]
    exact hback
  | @group i k j hopen hinner hclose hrest ihinner ihrest =>
    intro d
    have hle := hinner.le
    have hle' := hrest.le
    have hsplit : List.range' (i + 1) (j - i - 1)
        = List.range' (i + 1) (k - (i + 1)) ++ k :: List.range' (k + 1) (j - (k + 1)) := by
      rw [← List.range'_succ, show j - i - 1 = k - (i + 1) + (j - (k + 1) + 1) by omega,
        ← List.range'_append_1, show i + 1 + (k - (i + 1)) = k by omega]
    have hplace : place t literal i = .opening := place_eq hopen
    have hplace' : place t literal k = .closing := place_eq hclose
    rw [show j - i = j - i - 1 + 1 by omega, overAll_range'_succ, hplace, hsplit]
    show Level.overAll (place t literal) ⟨d + 1, false⟩ _ = _
    rw [overAll_append, ihinner (d + 1), Option.bind_some, overAll_cons, hplace']
    exact ihrest d

/-- **What leads back to the outermost level are items.** The induction is on how much there is: an
    opening brace is matched by the brace that leads below it again, and there is less on either
    side of that one. -/
theorem items_of_overAll : ∀ (m i : Nat),
    Level.overAll (place t literal) ⟨0, false⟩ (List.range' i m) = some ⟨0, false⟩ →
      Items t literal i (i + m) := by
  intro m
  induction m using Nat.strongRecOn with
  | _ m ih =>
    intro i h
    cases m with
    | zero => exact .done i
    | succ m =>
      rw [overAll_range'_succ, Option.bind_eq_some_iff] at h
      obtain ⟨l, hl, hrest⟩ := h
      cases hplace : place t literal i with
      | unknown =>
        rw [hplace] at hl
        cases hl
      | closing =>
        rw [hplace] at hl
        cases hl
      | plain =>
        obtain ⟨c, hc, hclass⟩ := exists_of_place hplace nofun
        obtain ⟨hopen, hclose, hslash⟩ := classify_eq_plain.mp hclass
        rw [hplace] at hl
        cases hl
        have hitems := ih m (by omega) (i + 1) hrest
        rw [show i + 1 + m = i + (m + 1) by omega] at hitems
        exact .single hc hopen hclose hslash hitems
      | escape =>
        obtain ⟨c, hc, hclass⟩ := exists_of_place hplace nofun
        obtain ⟨rfl, hactive⟩ := classify_eq_escape.mp hclass
        rw [hplace] at hl
        cases hl
        cases m with
        | zero => cases hrest
        | succ m =>
          rw [overAll_range'_succ, Option.bind_eq_some_iff] at hrest
          obtain ⟨l', hl', hrest'⟩ := hrest
          obtain ⟨hknown, rfl⟩ : place t literal (i + 1) ≠ .unknown ∧ l' = ⟨0, false⟩ := by
            revert hl'
            cases place t literal (i + 1) with
            | unknown => exact nofun
            | _ => exact fun h => ⟨nofun, (Option.some.inj h).symm⟩
          obtain ⟨d, hd, _⟩ := exists_of_place rfl hknown
          have hitems := ih m (by omega) (i + 2) hrest'
          rw [show i + 2 + m = i + (m + 1 + 1) by omega] at hitems
          exact .escaped hc hactive hd hitems
      | opening =>
        obtain ⟨c, hc, hclass⟩ := exists_of_place hplace nofun
        obtain rfl := classify_eq_opening.mp hclass
        rw [hplace] at hl
        cases hl
        obtain ⟨inner, close, after, hsplit, hclosing, hinner⟩ :=
          exists_closing (d := 0) (k := 0) hrest (Nat.le_refl 0)
        obtain ⟨k, hk, rfl, rfl, rfl⟩ := range'_split hsplit
        obtain ⟨c', hc', hclass'⟩ := exists_of_place hclosing nofun
        obtain rfl := classify_eq_closing.mp hclass'
        have hinside := ih k (by omega) (i + 1) hinner
        -- what is behind the group leads back as well
        change Level.overAll (place t literal) ⟨1, false⟩ _ = _ at hrest
        have hlift := overAll_of_items hinside 1
        rw [show i + 1 + k - (i + 1) = k by omega] at hlift
        rw [hsplit, overAll_append, hlift, Option.bind_some, overAll_cons, hclosing] at hrest
        have hitems := ih (m - k - 1) (by omega) _ hrest
        rw [show i + 1 + k + 1 + (m - k - 1) = i + (m + 1) by omega] at hitems
        exact .group hc hinside hc' hitems

end Levels

/-! ## 4. What the scan finds -/

section Closing

variable {openAt e : Nat}

/-- Where the scan stops, the placeholder is closed. -/
theorem closes_of_scan {inside after : List Nat}
    (h : scan (place t literal) 0 false (List.range' (openAt + 1) (t.length - (openAt + 1)))
      = .closed inside after) : Closes t literal openAt (openAt + 1 + inside.length) := by
  obtain ⟨close, hsplit, hclosing, hlevel⟩ := (scan_eq_closed_iff (l := ⟨0, false⟩)).mp h
  obtain ⟨k, _, rfl, rfl, _⟩ := range'_split hsplit
  obtain ⟨c, hc, hclass⟩ := exists_of_place hclosing nofun
  obtain rfl := classify_eq_closing.mp hclass
  rw [List.length_range']
  exact ⟨hc, items_of_overAll k (openAt + 1) hlevel⟩

/-- Where the placeholder is closed, the scan stops. -/
theorem scan_of_closes (h : Closes t literal openAt e) :
    scan (place t literal) 0 false (List.range' (openAt + 1) (t.length - (openAt + 1)))
      = .closed (List.range' (openAt + 1) (e - (openAt + 1)))
          (List.range' (e + 1) (t.length - (e + 1))) := by
  have hle := h.items.le
  have hlt := h.lt_length
  refine (scan_eq_closed_iff (l := ⟨0, false⟩)).mpr
    ⟨e, ?_, place_eq h.brace, overAll_of_items h.items 0⟩
  have hlength : t.length - (openAt + 1) = e - (openAt + 1) + (t.length - (e + 1) + 1) := by omega
  have hend : openAt + 1 + (e - (openAt + 1)) = e := by omega
  rw [hlength, ← List.range'_append_1, hend, List.range'_succ]

theorem interior_of_closes (h : Closes t literal openAt e) :
    interior t openAt literal = .ok ((openAt : Int) + 1, (e : Int)) := by
  have hle := h.items.le
  have hend : (openAt : Int) + 1 + ((e - (openAt + 1) : Nat) : Int) = e := by omega
  rw [interior_eq, scan_of_closes h]
  dsimp only
  rw [List.length_range', hend]

/-- The scan stops at a closing brace, or it refuses the text from the opening brace on. -/
theorem interior_cases (t : Text) (openAt : Nat) (literal : Int → Bool) :
    (∃ e, Closes t literal openAt e) ∨
      interior t openAt literal = .error (.unterminated (t.drop openAt)) := by
  rw [interior_eq]
  cases hscan : scan (place t literal) 0 false
      (List.range' (openAt + 1) (t.length - (openAt + 1))) with
  | closed inside after => exact .inl ⟨_, closes_of_scan hscan⟩
  | unterminated => exact .inr rfl
  | unknown =>
    refine absurd hscan (scan_ne_unknown fun i hi => ?_)
    obtain ⟨k, hk, rfl⟩ := List.mem_range'.mp hi
    have hlt : openAt + 1 + 1 * k < t.length := by omega
    rw [place_eq (List.getElem?_eq_getElem hlt)]
    exact classify_ne_unknown _ _

end Closing

/-- **The scan finds just the brace that closes a placeholder.** It answers with the first position
    of the interior and that of a closing brace if, and only if, the code points in between are
    items; there is one such brace at most; without one the text is refused from the opening brace
    on; and what stands behind the closing brace does not matter. -/
theorem interior_closes (t : Text) (openAt : Nat) (literal : Int → Bool) :
    (∀ first last : Int, interior t openAt literal = .ok (first, last) ↔
      first = openAt + 1 ∧ ∃ e : Nat, last = e ∧ Closes t literal openAt e) ∧
    (∀ e e' : Nat, Closes t literal openAt e → Closes t literal openAt e' → e = e') ∧
    (interior t openAt literal = .error (.unterminated (t.drop openAt)) ↔
      ¬∃ e, Closes t literal openAt e) ∧
    ∀ (e : Nat) (t' : Text) (literal' : Int → Bool), Closes t literal openAt e →
      t'.take (e + 1) = t.take (e + 1) → (∀ i : Nat, i ≤ e → literal' i = literal i) →
        interior t' openAt literal' = interior t openAt literal := by
  refine ⟨fun first last => ⟨fun h => ?_, ?_⟩, fun e e' h h' => ?_, ⟨?_, fun h => ?_⟩, ?_⟩
  · rcases interior_cases t openAt literal with ⟨e, he⟩ | hnone
    · rw [interior_of_closes he] at h
      cases h
      exact ⟨rfl, e, rfl, he⟩
    · rw [hnone] at h
      cases h
  · rintro ⟨rfl, e, rfl, he⟩
    exact interior_of_closes he
  · have hsame := (interior_of_closes h).symm.trans (interior_of_closes h')
    have hlast := congrArg Prod.snd (Except.ok.inj hsame)
    exact Int.ofNat_inj.mp hlast
  · rintro hnone ⟨e, he⟩
    rw [interior_of_closes he] at hnone
    cases hnone
  · exact (interior_cases t openAt literal).resolve_left h
  · intro e t' literal' h htext hliteral
    have hagree : ∀ k, k ≤ e → t'[k]? = t[k]? := by
      intro k hk
      have hget : (t'.take (e + 1))[k]? = (t.take (e + 1))[k]? := by rw [htext]
      rwa [List.getElem?_take_of_lt (by omega), List.getElem?_take_of_lt (by omega)] at hget
    have h' : Closes t' literal' openAt e := by
      refine ⟨by rw [hagree e (Nat.le_refl e), h.brace], ?_⟩
      exact h.items.of_agrees (fun k hk => hagree k (by omega)) fun k hk => hliteral k (by omega)
    rw [interior_of_closes h, interior_of_closes h']

/-- A placeholder with another one in it, which has an escaped brace; what is appended, and which
    backslashes are literal there, does not matter. -/
theorem interior_closes_nested :
    let t : Text := ['{', 'a', '{', 'b', '\\', '}', '}', '}']
    let more : Text := ['\\', '{']
    Closes t (fun _ => false) 0 7 ∧
      interior t 0 (fun _ => false) = .ok (1, 7) ∧
      interior (t ++ more) 0 (fun i => decide (7 < i)) = interior t 0 (fun _ => false) := by
  intro t more
  have hgroup : Items t (fun _ => false) 2 7 :=
    .group (k := 6) rfl (.single (c := 'b') rfl (by decide) (by decide) (by decide)
      (.escaped rfl rfl (c := '}') rfl (.done 6))) rfl (.done 7)
  have hcloses : Closes t (fun _ => false) 0 7 :=
    ⟨rfl, .single (c := 'a') rfl (by decide) (by decide) (by decide) hgroup⟩
  obtain ⟨hfound, -, -, hmore⟩ := interior_closes t 0 fun _ => false
  refine ⟨hcloses, (hfound 1 7).mpr ⟨rfl, 7, rfl, hcloses⟩, hmore 7 (t ++ more) _ hcloses rfl ?_⟩
  intro i hi
  exact decide_eq_false (by omega)

/-- A backslash that is active escapes the brace behind it. -/
example :
    let t : Text := ['{', 'a', '\\', '}', '}']
    interior t 0 (fun _ => false) = .ok (1, 4) ∧ interior t 0 (fun _ => true) = .ok (1, 3) :=
  ⟨rfl, rfl⟩

end GraphFeed.Brace
