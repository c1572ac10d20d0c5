import GraphFeed.Error
import GraphFeed.Span

/-!
# The closing brace of a placeholder

`Brace.scan` finds the brace that closes a placeholder. Braces nest; the item after an active
backslash counts for nothing, be it a brace or another backslash. The scan is over any items that a
function classifies as a `Brace.Token`, so that the items may carry marks; an item of unknown class
stops it.

`Brace.scan_closed_length` says that the interior, the closing brace and what follows are all of
the items: the interior is shorter than what was scanned.
-/

namespace GraphFeed.Brace

/-! ## 1. Scanning -/

/-- What an item is to the scan. -/
inductive Token
  | opening
  | closing
  /-- An active backslash. -/
  | escape
  | plain
  | unknown
deriving DecidableEq, Repr

/-- What a scan finds. -/
inductive Found (α : Type)
  | closed (interior after : List α)
  | unterminated
  | unknown
deriving Repr

/-- Puts an item in front of the interior. -/
def Found.push {α : Type} (x : α) : Found α → Found α
  | .closed interior after => .closed (x :: interior) after
  | other => other

/-- Scans the items behind an opening brace, `depth` more of which are open; `escaped` tells that
    an active backslash came before. -/
def scan {α : Type} (token : α → Token) (depth : Nat) (escaped : Bool) : List α → Found α
  | [] => .unterminated
  | x :: rest =>
    match token x with
    | .unknown => .unknown
    | .escape => (scan token depth (!escaped) rest).push x
    | .plain => (scan token depth false rest).push x
    | .opening => (scan token (if escaped then depth else depth + 1) false rest).push x
    | .closing =>
      if escaped then (scan token depth false rest).push x
      else
        match depth with
        | 0 => .closed [] rest
        | depth + 1 => (scan token depth false rest).push x

theorem Found.push_closed {α : Type} {x : α} {f : Found α} {i a : List α}
    (h : f.push x = .closed i a) : ∃ j, i = x :: j ∧ f = .closed j a := by
  cases f with
  | closed j b =>
    simp only [Found.push, Found.closed.injEq] at h
    exact ⟨j, h.1.symm, by rw [h.2]⟩
  | unterminated => cases h
  | unknown => cases h

/-- **Interior, closing brace and rest are all that was scanned.** -/
theorem scan_closed {α : Type} (token : α → Token) :
    ∀ (items : List α) (depth : Nat) (escaped : Bool) (interior after : List α),
      scan token depth escaped items = .closed interior after →
        ∃ close, token close = .closing ∧ items = interior ++ close :: after := by
  intro items
  induction items with
  | nil => intro depth escaped i a h; cases h
  | cons x rest ih =>
    intro depth escaped i a h
    have step : ∀ depth escaped, (scan token depth escaped rest).push x = .closed i a →
        ∃ close, token close = .closing ∧ x :: rest = i ++ close :: a := by
      intro depth escaped h
      obtain ⟨j, rfl, hj⟩ := Found.push_closed h
      obtain ⟨close, hc, hr⟩ := ih depth escaped j a hj
      exact ⟨close, hc, by rw [hr]; rfl⟩
    simp only [scan] at h
    split at h
    · cases h
    · exact step _ _ h
    · exact step _ _ h
    · exact step _ _ h
    · rename_i hx
      split at h
      · exact step _ _ h
      · split at h
        · cases h
          exact ⟨x, hx, rfl⟩
        · exact step _ _ h

theorem scan_closed_length {α : Type} {token : α → Token} {depth : Nat} {escaped : Bool}
    {items interior after : List α} (h : scan token depth escaped items = .closed interior after) :
    items.length = interior.length + after.length + 1 := by
  obtain ⟨close, _, hi⟩ := scan_closed token items depth escaped interior after h
  rw [hi]
  simp only [List.length_append, List.length_cons]
  omega

/-! ## 2. Texts -/

/-- The class of a code point, a backslash being active unless it is `literal`. -/
def classify (c : CodePoint) (literal : Bool) : Token :=
  if c = '\\' then if literal then .plain else .escape
  else if c = '{' then .opening
  else if c = '}' then .closing
  else .plain

theorem classify_ne_unknown (c : CodePoint) (literal : Bool) : classify c literal ≠ .unknown := by
  unfold classify
  split
  · split <;> decide
  · split
    · decide
    · split <;> decide

/-- The code points of a text from position `start` on, with their positions. Negative positions
    count from the end, and those before the beginning hold nothing. -/
def positions (t : Text) (start : Int) : List (Int × Option CodePoint) :=
  let before := (List.range (-start).toNat).map fun (i : Nat) =>
    (start + (i : Int), Span.item? t (start + (i : Int)))
  let from0 := (t.drop start.toNat).zipIdx.map fun (c, i) => ((start.toNat + i : Int), some c)
  before ++ from0

/-- The first position of the interior of the placeholder that is opened at `openAt`, and the
    position of its closing brace. A backslash at a position where `literal` holds escapes
    nothing. -/
def interior (t : Text) (openAt : Int) (literal : Int → Bool) : Except Error (Int × Int) :=
  let token : Int × Option CodePoint → Token
    | (i, some c) => classify c (literal i)
    | (_, none) => .unknown
  match scan token 0 false (positions t (openAt + 1)) with
  | .closed inside _ => .ok (openAt + 1, openAt + 1 + inside.length)
  | .unterminated => .error (.unterminated (Span.slice t openAt none))
  | .unknown => .error .textIndex

end GraphFeed.Brace
