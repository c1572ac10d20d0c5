import GraphFeed.Template.Buffer

/-!
# Text and marks in step

A buffer keeps its text and its marks in two lists, and an edit changes each of them on its own. They
stay in step just where the span of the edit is in order: then both are changed at the same place.

* `Span.getElem?_splice_front`, `_new`, `_back`: where the items of a list are found behind a splice;
* `Buffer.text_splice_of_ordered`: text is spliced as marks are where the span is in order;
* `Birth.Tell.apply`: what a revision puts in has its mark, and what it leaves keeps its own;
* `spliced_in_step`: **a splice keeps text and marks of one length just where its span is in order**, and
  then every code point outside of the span keeps its mark. After any revisions in order, every code
  point has the mark that it was put in with.

Where a code point was put in is its `Birth`. The births of a buffer are one list, which is edited along
with the buffer.
-/

namespace GraphFeed

/-! ## 1. Places behind a splice -/

namespace Span

variable {α : Type} {items new : List α} {start stop : Int}

/-- The items before the span stay where they are. -/
theorem getElem?_splice_front {i : Nat} (hi : i < clamp items.length start) :
    (splice items start stop new)[i]? = items[i]? := by
  have hle := clamp_le items.length start
  have hfront : i < (items.take (clamp items.length start)).length := by
    rw [List.length_take]
    omega
  rw [splice, List.append_assoc, List.getElem?_append_left hfront, List.getElem?_take_of_lt hi]

/-- The new items stand from the beginning of the span on. -/
theorem getElem?_splice_new {j : Nat} (hj : j < new.length) :
    (splice items start stop new)[clamp items.length start + j]? = new[j]? := by
  have hle := clamp_le items.length start
  have hfront : (items.take (clamp items.length start)).length = clamp items.length start := by
    rw [List.length_take]
    omega
  rw [splice, List.append_assoc, List.getElem?_append_right (by omega), hfront,
    Nat.add_sub_cancel_left, List.getElem?_append_left hj]

/-- The items behind the span stand behind the new ones. -/
theorem getElem?_splice_back (new : List α) {k : Nat}
    (hordered : clamp items.length start ≤ clamp items.length stop)
    (hk : clamp items.length stop ≤ k) :
    (splice items start stop new)[clamp items.length start + new.length
      + (k - clamp items.length stop)]? = items[k]? := by
  have hle := clamp_le items.length start
  have hfront : (items.take (clamp items.length start) ++ new).length
      = clamp items.length start + new.length := by
    rw [List.length_append, List.length_take]
    omega
  rw [splice, List.getElem?_append_right (by omega), hfront, Nat.add_sub_cancel_left,
    List.getElem?_drop]
  congr 1
  omega

end Span

/-! ## 2. One splice -/

namespace Buffer

variable {b : Buffer} {start stop : Int} {replacement : Text} {mark : Mark}

/-- **A span in order is spliced in the text as it is in the marks.** -/
theorem text_splice_of_ordered (replacement : Text) (mark : Mark)
    (hordered : Span.clamp b.text.length start ≤ Span.clamp b.text.length stop) :
    (b.splice start stop replacement mark).text = Span.splice b.text start stop replacement := by
  have hzero : Span.clamp b.letters.length 0 = 0 := Span.clamp_natCast (Nat.zero_le _)
  have hlast : max (Span.clamp b.letters.length start) (Span.clamp b.letters.length stop)
      = Span.clamp b.letters.length stop := by
    rw [text, List.length_map] at hordered
    exact Nat.max_eq_right hordered
  have hnew : (replacement.map fun c => (⟨c, none⟩ : Letter)).map Letter.char = replacement := by
    rw [List.map_map]
    exact List.map_id' replacement
  have hsplice : (b.splice start stop replacement mark).letters
      = Span.splice b.letters start stop (replacement.map (⟨·, none⟩)) := by
    simp only [splice, Span.slice, Span.splice, hzero, hlast, List.drop_zero, List.take_length]
  rw [text, hsplice, Span.map_splice, hnew, text]

/-- The length of the text and that of the marks behind a splice. -/
theorem lengths_splice (h : b.Aligned) (start stop : Int) (replacement : Text) (mark : Mark) :
    let first := Span.clamp b.text.length start
    let last := Span.clamp b.text.length stop
    let b' := b.splice start stop replacement mark
    b'.text.length = first + replacement.length + (b.text.length - last) ∧
      b'.marks.length = first + replacement.length + (b.text.length - max first last) := by
  have hfirst := Span.clamp_le b.text.length start
  have hzero : Span.clamp b.letters.length 0 = 0 := Span.clamp_natCast (Nat.zero_le _)
  have htext : b.text.length = b.letters.length := List.length_map _
  unfold Aligned at h
  dsimp only
  constructor
  · rw [htext] at hfirst ⊢
    simp only [text, splice, Span.slice, List.length_map, List.length_append, List.length_take,
      List.length_drop, hzero]
    omega
  · rw [h] at hfirst ⊢
    simp only [splice, Span.splice, List.length_append, List.length_take, List.length_drop,
      List.length_replicate]
    omega

/-- **Text and marks stay of one length just where the span is in order.** -/
theorem aligned_splice_iff (h : b.Aligned) : (b.splice start stop replacement mark).Aligned ↔
    Span.clamp b.text.length start ≤ Span.clamp b.text.length stop := by
  obtain ⟨htext, hmarks⟩ := lengths_splice h start stop replacement mark
  have hfirst := Span.clamp_le b.text.length start
  have hlast := Span.clamp_le b.text.length stop
  rw [Aligned, htext, hmarks]
  omega

/-- At position `i` of the one buffer and position `i'` of the other stand the same code point and the
    same mark, or nothing. -/
def Agree (b b' : Buffer) (i i' : Nat) : Prop :=
  b'.text[i']? = b.text[i]? ∧ b'.marks[i']? = b.marks[i]?

/-- **What is found of a buffer behind a splice**: what stood before the span, the replacement with its
    mark, and what stood behind the span, each at its place. -/
structure Spliced (b b' : Buffer) (first last : Nat) (replacement : Text) (mark : Mark) : Prop where
  front : ∀ i < first, b.Agree b' i i
  new : ∀ j < replacement.length,
    b'.text[first + j]? = replacement[j]? ∧ b'.marks[first + j]? = some mark
  back : ∀ k ≥ last, b.Agree b' k (first + replacement.length + (k - last))

theorem spliced_of_ordered (h : b.Aligned)
    (hordered : Span.clamp b.text.length start ≤ Span.clamp b.text.length stop) :
    b.Spliced (b.splice start stop replacement mark) (Span.clamp b.text.length start)
      (Span.clamp b.text.length stop) replacement mark := by
  have htext := text_splice_of_ordered replacement mark hordered
  have hmarks : (b.splice start stop replacement mark).marks
      = Span.splice b.marks start stop (List.replicate replacement.length mark) := rfl
  constructor
  case front =>
    intro i hi
    rw [Agree, htext, hmarks]
    refine ⟨Span.getElem?_splice_front hi, Span.getElem?_splice_front ?_⟩
    rwa [← h]
  case new =>
    intro j hj
    rw [htext, hmarks, Span.getElem?_splice_new hj, h,
      Span.getElem?_splice_new (by rwa [List.length_replicate]), List.getElem?_replicate_of_lt hj]
    exact ⟨rfl, rfl⟩
  case back =>
    intro k hk
    rw [Agree, htext, hmarks]
    refine ⟨Span.getElem?_splice_back _ hordered hk, ?_⟩
    rw [h] at hordered hk ⊢
    have hback := Span.getElem?_splice_back (List.replicate replacement.length mark) hordered hk
    rwa [List.length_replicate] at hback

end Buffer

/-! ## 3. Revisions -/

/-- An edit of a buffer from outside: a splice, or a guard in front of a position. -/
inductive Revision
  | splice (start stop : Int) (replacement : Text) (mark : Mark)
  | guard (index : Int)

namespace Revision

/-- The buffer behind a revision. -/
def apply (b : Buffer) : Revision → Buffer
  | .splice start stop replacement mark => b.splice start stop replacement mark
  | .guard index => b.insertGuard index

/-- Where the span begins that is replaced. -/
def start : Revision → Int
  | .splice start .. => start
  | .guard index => index

/-- Where it ends. -/
def stop : Revision → Int
  | .splice _ stop .. => stop
  | .guard index => index

/-- What is put in its place. -/
def text : Revision → Text
  | .splice _ _ replacement _ => replacement
  | .guard _ => [('\\' : CodePoint)]

/-- The mark that this gets. -/
def mark : Revision → Mark
  | .splice _ _ _ mark => mark
  | .guard _ => .guarding

theorem apply_eq (b : Buffer) (r : Revision) :
    r.apply b = b.splice r.start r.stop r.text r.mark := by
  cases r <;> rfl

/-- The span of a splice is in order in a text of `length` code points. -/
def IsOrdered (length : Nat) : Revision → Prop
  | .splice start stop .. => Span.clamp length start ≤ Span.clamp length stop
  | .guard _ => True

instance (length : Nat) : ∀ r : Revision, Decidable (r.IsOrdered length)
  | .splice start stop .. =>
    inferInstanceAs (Decidable (Span.clamp length start ≤ Span.clamp length stop))
  | .guard _ => inferInstanceAs (Decidable True)

theorem IsOrdered.clamp_le {length : Nat} {r : Revision} (h : r.IsOrdered length) :
    Span.clamp length r.start ≤ Span.clamp length r.stop := by
  cases r with
  | splice => exact h
  | guard => exact Nat.le_refl _

end Revision

namespace Buffer

/-- The buffer behind revisions, one after the other. -/
def revise (b : Buffer) (revisions : List Revision) : Buffer := revisions.foldl Revision.apply b

/-- Every revision is in order in the text that it comes to. -/
def Ordered (b : Buffer) : List Revision → Prop
  | [] => True
  | r :: rest => r.IsOrdered b.text.length ∧ (r.apply b).Ordered rest

instance decidableOrdered : ∀ (b : Buffer) (revisions : List Revision), Decidable (b.Ordered revisions)
  | _, [] => inferInstanceAs (Decidable True)
  | b, r :: rest =>
    have := decidableOrdered (r.apply b) rest
    inferInstanceAs (Decidable (_ ∧ _))

end Buffer

/-! ## 4. Births -/

/-- Where a code point was put into a buffer: by which of its revisions, or before all of them, and at
    which place of what was put in. -/
structure Birth where
  revision : Option Nat
  place : Nat
deriving DecidableEq, Repr

namespace Birth

variable (b : Buffer) (revisions : List Revision)

/-- The code point that was put in. -/
def char? (birth : Birth) : Option CodePoint :=
  match birth.revision with
  | none => b.text[birth.place]?
  | some n => revisions[n]?.bind (·.text[birth.place]?)

/-- The mark that it was put in with. -/
def mark? (birth : Birth) : Option Mark :=
  match birth.revision with
  | none => b.marks[birth.place]?
  | some n => revisions[n]?.map (·.mark)

/-- The births of what a revision puts in. -/
def ofRevision (n : Nat) (r : Revision) : List Birth :=
  (List.range r.text.length).map fun place => ⟨some n, place⟩

/-- The births of what stands in a buffer before its revisions. -/
def ofBuffer (b : Buffer) : List Birth := (List.range b.text.length).map fun place => ⟨none, place⟩

/-- The births behind the revisions from number `n` on. They are one list, and each revision replaces
    a span of it. -/
def revised (n : Nat) (births : List Birth) : List Revision → List Birth
  | [] => births
  | r :: rest => revised (n + 1) (Span.splice births r.start r.stop (ofRevision n r)) rest

end Birth

/-- The births of what stands in a buffer behind revisions. -/
def Buffer.births (b : Buffer) (revisions : List Revision) : List Birth :=
  Birth.revised 0 (Birth.ofBuffer b) revisions

/-- **The births tell what stands in a buffer**: at every position the code point and the mark that were
    put in there. -/
structure Birth.Tell (b : Buffer) (revisions : List Revision) (births : List Birth) (b' : Buffer) :
    Prop where
  text : births.map (Birth.char? b revisions) = b'.text.map some
  marks : births.map (Birth.mark? b revisions) = b'.marks.map some

namespace Birth

variable {b b' : Buffer} {revisions : List Revision} {births : List Birth}

theorem map_range_getElem? {α : Type} (items : List α) :
    (List.range items.length).map (items[·]?) = items.map some := by
  refine List.ext_getElem (by simp only [List.length_map, List.length_range]) fun i hi _ => ?_
  rw [List.length_map, List.length_range] at hi
  rw [List.getElem_map, List.getElem_map, List.getElem_range, List.getElem?_eq_getElem hi]

theorem tell_ofBuffer (h : b.Aligned) : Tell b revisions (ofBuffer b) b where
  text := by
    rw [ofBuffer, List.map_map]
    exact map_range_getElem? b.text
  marks := by
    rw [ofBuffer, List.map_map, h]
    exact map_range_getElem? b.marks

/-- **A revision in order replaces a span of the births.** -/
theorem Tell.apply (h : Tell b revisions births b') {n : Nat} {r : Revision}
    (hr : revisions[n]? = some r) (hordered : r.IsOrdered b'.text.length) :
    Tell b revisions (Span.splice births r.start r.stop (ofRevision n r)) (r.apply b') where
  text := by
    have hnew : (ofRevision n r).map (char? b revisions) = r.text.map some := by
      rw [ofRevision, List.map_map, ← map_range_getElem? r.text]
      refine List.map_congr_left fun place _ => ?_
      change revisions[n]?.bind (·.text[place]?) = _
      rw [hr]
      rfl
    rw [Span.map_splice, h.text, hnew, r.apply_eq,
      Buffer.text_splice_of_ordered r.text r.mark hordered.clamp_le, Span.map_splice]
  marks := by
    have hnew : (ofRevision n r).map (mark? b revisions)
        = (List.replicate r.text.length r.mark).map some := by
      have hone : ∀ place ∈ List.range r.text.length,
          (mark? b revisions ∘ fun place => ⟨some n, place⟩) place = some r.mark := by
        intro place _
        change revisions[n]?.map (·.mark) = _
        rw [hr]
        rfl
      rw [ofRevision, List.map_map, List.map_congr_left hone, List.map_const', List.length_range,
        List.map_replicate]
    rw [Span.map_splice, h.marks, hnew, r.apply_eq, Buffer.splice, Span.map_splice]

/-- So do revisions in order, one after the other. -/
theorem Tell.revise (rest : List Revision) : ∀ (done : List Revision) {births : List Birth}
    {b' : Buffer}, done ++ rest = revisions → Tell b revisions births b' → b'.Ordered rest →
    Tell b revisions (revised done.length births rest) (b'.revise rest) := by
  induction rest with
  | nil => exact fun _ _ _ _ h _ => h
  | cons r rest ih =>
    intro done births b' hsplit h ⟨hordered, hrest⟩
    have hr : revisions[done.length]? = some r := by
      rw [← hsplit, List.getElem?_append_right (Nat.le_refl _), Nat.sub_self]
      rfl
    have hdone : (done ++ [r]) ++ rest = revisions := by rw [List.append_assoc]; exact hsplit
    have hnext := ih _ hdone (h.apply hr hordered) hrest
    rwa [List.length_append, List.length_singleton] at hnext

/-- **What births tell of a buffer**, position by position. -/
theorem Tell.getElem? (h : Tell b revisions births b') {i : Nat} {birth : Birth}
    (hi : births[i]? = some birth) : b'.text[i]? = birth.char? b revisions ∧
      b'.marks[i]? = birth.mark? b revisions := by
  have htext := congrArg (·[i]?) h.text
  have hmarks := congrArg (·[i]?) h.marks
  simp only [List.getElem?_map, hi, Option.map_some] at htext hmarks
  constructor
  · cases hchar : b'.text[i]? with
    | none => rw [hchar] at htext; cases htext
    | some c => rw [hchar] at htext; exact (Option.some.inj htext).symm
  · cases hmark : b'.marks[i]? with
    | none => rw [hmark] at hmarks; cases hmarks
    | some m => rw [hmark] at hmarks; exact (Option.some.inj hmarks).symm

theorem Tell.length (h : Tell b revisions births b') :
    births.length = b'.text.length ∧ births.length = b'.marks.length := by
  have htext := congrArg List.length h.text
  have hmarks := congrArg List.length h.marks
  rw [List.length_map, List.length_map] at htext hmarks
  exact ⟨htext, hmarks⟩

end Birth

/-! ## 5. In step -/

/-- **A splice keeps text and marks of one length just where its span is in order**, and then all that
    stood outside of the span keeps its mark, and the replacement has its own. Behind any revisions in
    order text and marks are of one length, and every code point has the mark that it was put in
    with. -/
theorem spliced_in_step {b : Buffer} (h : b.Aligned) :
    (∀ (start stop : Int) (replacement : Text) (mark : Mark),
      let first := Span.clamp b.text.length start
      let last := Span.clamp b.text.length stop
      let b' := b.splice start stop replacement mark
      (b'.Aligned ↔ first ≤ last) ∧ (first ≤ last → b.Spliced b' first last replacement mark)) ∧
    ∀ revisions : List Revision, b.Ordered revisions →
      let b' := b.revise revisions
      let births := b.births revisions
      b'.Aligned ∧ births.length = b'.text.length ∧
        ∀ (i : Nat) (birth : Birth), births[i]? = some birth →
          b'.text[i]? = birth.char? b revisions ∧ b'.marks[i]? = birth.mark? b revisions := by
  constructor
  · intro start stop replacement mark
    exact ⟨Buffer.aligned_splice_iff h, fun hordered => Buffer.spliced_of_ordered h hordered⟩
  · intro revisions hordered
    have htell : Birth.Tell b revisions (b.births revisions) (b.revise revisions) :=
      Birth.Tell.revise revisions [] rfl (Birth.tell_ofBuffer h) hordered
    obtain ⟨htext, hmarks⟩ := htell.length
    exact ⟨htext.symm.trans hmarks, htext, fun i birth hi => htell.getElem? hi⟩

/-- A placeholder is filled with a brace, which gets a guard; then the end is replaced, given from
    behind, and something is put in front. A span that is crossed leaves more text than marks. -/
theorem spliced_in_step_guarded :
    let b := Buffer.ofTemplate "a{1}!"
    let revisions : List Revision :=
      [.splice 1 4 "\x7bx" .resolved, .guard 1, .splice (-1) 99 "?!" .trusted,
        .splice (-99) 0 "-" .resolved]
    b.Aligned ∧ ¬(b.splice 3 1 "x" .resolved).Aligned ∧ b.Ordered revisions ∧
      (b.revise revisions).text = "-a\\\x7bx?!" ∧
      (b.revise revisions).marks[2]? = some .guarding ∧
      (b.revise revisions).marks[4]? = some .resolved := by
  intro b revisions
  have haligned : b.Aligned := Buffer.aligned_ofTemplate _
  have hordered : b.Ordered revisions := by decide
  obtain ⟨hsplice, hrevise⟩ := spliced_in_step haligned
  obtain ⟨_, _, hbirths⟩ := hrevise revisions hordered
  refine ⟨haligned, fun h => absurd ((hsplice 3 1 "x" .resolved).1.mp h) (by decide), hordered,
    by decide, ?_, ?_⟩
  · exact (hbirths 2 ⟨some 1, 0⟩ (by decide)).2
  · exact (hbirths 4 ⟨some 0, 1⟩ (by decide)).2

end GraphFeed
