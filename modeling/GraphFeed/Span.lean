/-!
# Spans of a list

A span is given by two positions, either of which may be negative or lie outside the list: a
negative position counts from the end, and one outside is moved to the nearer end (`Span.clamp`).
`Span.slice` takes a span out of a list, `Span.splice` puts other items in its place.
-/

namespace GraphFeed.Span

/-- The position in a list of `length` items that `i` stands for. -/
def clamp (length : Nat) (i : Int) : Nat :=
  if i < 0 then (length + i).toNat else min i.toNat length

theorem clamp_le (length : Nat) (i : Int) : clamp length i ≤ length := by
  unfold clamp; split <;> omega

@[simp] theorem clamp_natCast {length i : Nat} (h : i ≤ length) : clamp length (i : Int) = i := by
  unfold clamp
  have : ¬ ((i : Int) < 0) := by omega
  simp only [this, if_false, Int.toNat_natCast]
  omega

/-- The items from `start` to before `stop`; without `stop`, to the end. -/
def slice {α : Type _} (items : List α) (start : Int) (stop : Option Int) : List α :=
  let last := match stop with
    | some stop => clamp items.length stop
    | none => items.length
  (items.take last).drop (clamp items.length start)

/-- The items before a position. -/
theorem slice_take {α : Type _} {items : List α} {k : Nat} (hk : k ≤ items.length) :
    slice items 0 (some (k : Int)) = items.take k := by
  have hstart : clamp items.length 0 = 0 := clamp_natCast (Nat.zero_le _)
  simp only [slice, hstart, clamp_natCast hk, List.drop_zero]

/-- The items from a position on. -/
theorem slice_drop {α : Type _} {items : List α} {k : Nat} (hk : k ≤ items.length) :
    slice items (k : Int) none = items.drop k := by
  simp only [slice, clamp_natCast hk, List.take_length]

/-- The list with the items from `start` to before `stop` replaced. Where `stop` comes before
    `start`, nothing is removed and the replacement is inserted at `start`. -/
def splice {α : Type _} (items : List α) (start stop : Int) (replacement : List α) : List α :=
  let first := clamp items.length start
  let last := max first (clamp items.length stop)
  items.take first ++ replacement ++ items.drop last

theorem map_splice {α β : Type _} (f : α → β) (items : List α) (start stop : Int)
    (replacement : List α) :
    (splice items start stop replacement).map f
      = splice (items.map f) start stop (replacement.map f) := by
  simp only [splice, List.map_append, List.map_take, List.map_drop, List.length_map]

/-- The part of a list between two others is replaced. -/
theorem splice_append {α : Type _} {items front span back : List α} (h : items = front ++ span ++ back)
    (replacement : List α) :
    splice items (front.length : Nat) (front.length + span.length : Nat) replacement
      = front ++ replacement ++ back := by
  subst h
  have hstart : clamp (front ++ span ++ back).length (front.length : Nat) = front.length :=
    clamp_natCast (by simp only [List.length_append]; omega)
  have hstop : clamp (front ++ span ++ back).length (front.length + span.length : Nat)
      = (front ++ span).length := by
    rw [clamp_natCast (by simp only [List.length_append]; omega), List.length_append]
  have hlast : max front.length (front ++ span).length = (front ++ span).length := by
    rw [List.length_append]
    omega
  simp only [splice, hstart, hstop, hlast, List.drop_left]
  rw [List.append_assoc front span back, List.take_left]

/-- The item at a position; a negative one counts from the end. -/
def item? {α : Type _} (items : List α) (i : Int) : Option α :=
  if 0 ≤ i then items[i.toNat]?
  else if 0 ≤ items.length + i then items[(items.length + i).toNat]?
  else none

end GraphFeed.Span
