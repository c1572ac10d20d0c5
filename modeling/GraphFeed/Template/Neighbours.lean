/-!
# Items and their neighbours

Whether a brace is live depends on the cells before and after it. `Along R before items next` says of
items that stand between `before` and `next` that each of them is related to its two neighbours by
`R`. It is the form of all that is said of the cells in the middle of a sweep: `along_append` takes
it apart where the sweep stands, and `Along.of_next` and `Along.of_before` put other cells there.
-/

namespace GraphFeed

variable {α : Type _}

/-- Each of the items is related to its neighbours; `before` and `next` are those of the whole. -/
def Along (R : Option α → α → Option α → Prop) (before : Option α) : List α → Option α → Prop
  | [], _ => True
  | x :: items, next => R before x (items.head?.or next) ∧ Along R (some x) items next

variable {R S : Option α → α → Option α → Prop} {before next : Option α}

@[simp] theorem along_nil : Along R before [] next := trivial

@[simp] theorem along_cons {x : α} {items : List α} :
    Along R before (x :: items) next ↔
      R before x (items.head?.or next) ∧ Along R (some x) items next := Iff.rfl

/-- **Items in two parts are neighbours at the seam.** -/
theorem along_append : ∀ {front back : List α} {before : Option α},
    Along R before (front ++ back) next ↔
      Along R before front (back.head?.or next) ∧ Along R (front.getLast?.or before) back next
  | [], back, before => by simp
  | x :: front, back, before => by
    have seam : (front.getLast?.or (some x)) = ((x :: front).getLast?.or before) := by
      rw [List.getLast?_cons]
      cases front.getLast? <;> rfl
    rw [List.cons_append, along_cons, along_append, along_cons, ← and_assoc, List.head?_append,
      Option.or_assoc, seam]

/-- The last item, taken alone. -/
theorem along_concat {items : List α} {x : α} :
    Along R before (items ++ [x]) next ↔
      Along R before items (some x) ∧ R (items.getLast?.or before) x next := by
  rw [along_append]
  simp

/-- The items passed, the last one first, and those that are left. -/
theorem along_reverse_append {done rest : List α} :
    Along R none (done.reverse ++ rest) none ↔
      Along R none done.reverse rest.head? ∧ Along R done.head? rest none := by
  rw [along_append, Option.or_none, Option.or_none, List.getLast?_reverse]

/-- One more item is passed. -/
theorem along_reverse_cons {x : α} {done : List α} :
    Along R none (x :: done).reverse next ↔
      Along R none done.reverse (some x) ∧ R done.head? x next := by
  rw [List.reverse_cons, along_concat, Option.or_none, List.getLast?_reverse]

/-- What is related in one way is related in another, and so is the last item before another
    follower. -/
theorem Along.imp_next {next' : Option α} (h : ∀ b x n, R b x n → S b x n)
    (hlast : ∀ b x, R b x next → S b x next') :
    ∀ {items : List α} {before : Option α}, Along R before items next → Along S before items next'
  | [], _, _ => trivial
  | [_], _, hi => ⟨hlast _ _ hi.1, trivial⟩
  | _ :: _ :: _, _, hi => ⟨h _ _ _ hi.1, Along.imp_next h hlast hi.2⟩

/-- Another item may follow, if the relation says as much of every item. -/
theorem Along.of_next {next' : Option α} (h : ∀ b x, R b x next → R b x next') {items : List α}
    {before : Option α} (hi : Along R before items next) : Along R before items next' :=
  hi.imp_next (fun _ _ _ hr => hr) h

/-- The items may stand behind another item, if the relation says as much of every item. -/
theorem Along.of_before {before' : Option α} (h : ∀ x n, R before x n → R before' x n) :
    ∀ {items : List α}, Along R before items next → Along R before' items next
  | [], _ => trivial
  | _ :: _, hi => ⟨h _ _ hi.1, hi.2⟩

theorem Along.and : ∀ {items : List α} {before : Option α},
    Along R before items next → Along S before items next →
      Along (fun b x n => R b x n ∧ S b x n) before items next
  | [], _, _, _ => trivial
  | _ :: _, _, hr, hs => ⟨⟨hr.1, hs.1⟩, hr.2.and hs.2⟩

/-- What holds of each position holds along the items. -/
theorem along_of_getElem? : ∀ {items : List α} {before : Option α},
    (∀ i x, items[i]? = some x →
      R (if i = 0 then before else items[i - 1]?) x (items[i + 1]?.or next)) →
    Along R before items next
  | [], _, _ => trivial
  | x :: items, before, h => by
    have hx := h 0 x rfl
    refine ⟨by simpa [List.head?_eq_getElem?] using hx, along_of_getElem? fun i y hy => ?_⟩
    have hy' := h (i + 1) y hy
    cases i with
    | zero => simpa using hy'
    | succ i => simpa using hy'

/-- What holds along the items holds of each of them. -/
theorem Along.getElem? : ∀ {items : List α} {before : Option α}, Along R before items next →
    ∀ {i : Nat} {x : α}, items[i]? = some x → ∃ b, R b x (items[i + 1]?.or next)
  | [], _, _, _, _, hx => by cases hx
  | x :: items, before, h, i, y, hy => by
    cases i with
    | zero =>
      cases hy
      have hx := h.1
      rw [List.head?_eq_getElem?] at hx
      exact ⟨before, by simpa using hx⟩
    | succ i =>
      rw [List.getElem?_cons_succ] at hy ⊢
      exact h.2.getElem? hy

theorem along_of_forall : ∀ {items : List α} {before : Option α},
    (∀ x ∈ items, ∀ b n, R b x n) → Along R before items next
  | [], _, _ => trivial
  | x :: _, _, h => ⟨h x List.mem_cons_self _ _,
      along_of_forall fun y hy => h y (List.mem_cons_of_mem x hy)⟩

end GraphFeed
