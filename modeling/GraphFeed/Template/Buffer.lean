import GraphFeed.Error
import GraphFeed.Span
import GraphFeed.Text.Blank

/-!
# The template under expansion

A `Buffer` is a text and the marks of its code points: a mark says whether a code point stands in
the template, came from data, or was put in by the expansion as a guard in front of a brace of data.
Text and marks are two lists that every edit changes alike. They stay of one length as long as the
spans that are replaced are in order; a span given backwards lets them drift apart, and then a position
may have no mark.

The code points of a buffer are kept as `Letter`s: a letter of the template remembers at which
position it stood there. Nothing is decided by that position; it is there to tell, of what an
expansion does, which place of the template it is done for.

`Buffer.cells` pairs the letters with their marks, as the expansion reads them, and `Buffer.ofCells`
puts them together again (`ofCells_cells`, `cells_ofCells`).
-/

namespace GraphFeed

/-! ## 1. Marks -/

/-- Where a code point of a buffer came from. -/
inductive Mark
  /-- It stands in the template. -/
  | trusted
  /-- It came from a record or from the output of a command. -/
  | resolved
  /-- A backslash that was put in front of a brace of data. -/
  | guarding
deriving DecidableEq, Repr

/-- The name of a mark. -/
def Mark.name : Mark → String
  | .trusted => "trusted"
  | .resolved => "resolved"
  | .guarding => "escape"

/-- The sign of a mark in the rendering of a buffer. -/
def Mark.sign : Mark → CodePoint
  | .trusted => '.'
  | .resolved => '^'
  | .guarding => '!'

/-! ## 2. Buffers -/

/-- A code point, and its position in the template if it was taken from there. -/
structure Letter where
  char : CodePoint
  origin : Option Nat
deriving DecidableEq

/-- A text and the marks of its code points. -/
structure Buffer where
  letters : List Letter
  marks : List Mark
deriving DecidableEq

namespace Buffer

/-- The code points of a buffer. -/
def text (b : Buffer) : Text := b.letters.map Letter.char

/-- The buffer that holds a template and nothing else. -/
def ofTemplate (t : Text) : Buffer :=
  ⟨t.zipIdx.map fun (c, i) => ⟨c, some i⟩, List.replicate t.length .trusted⟩

/-- Replaces the span from `start` to before `stop`; the replacement is marked throughout. -/
def splice (b : Buffer) (start stop : Int) (replacement : Text) (mark : Mark) : Buffer :=
  ⟨Span.slice b.letters 0 (some start) ++ replacement.map (⟨·, none⟩)
      ++ Span.slice b.letters stop none,
   Span.splice b.marks start stop (List.replicate replacement.length mark)⟩

/-- Puts a guarding backslash in front of a position. -/
def insertGuard (b : Buffer) (index : Int) : Buffer :=
  b.splice index index [('\\' : CodePoint)] .guarding

/-- The mark at a position. -/
def markAt (b : Buffer) (index : Int) : Except Error Mark :=
  match Span.item? b.marks index with
  | some m => .ok m
  | none => .error .listIndex

/-- How many marks are not `trusted`. -/
def taintedCount (b : Buffer) : Nat := b.marks.countP (· ≠ .trusted)

/-- The text without the guarding backslashes. -/
def cleanup (b : Buffer) : Text :=
  ((b.text.zip b.marks).filter fun p => p.2 ≠ .guarding).map (·.1)

/-- The text and, on a second line, the signs of its marks. -/
def render (b : Buffer) : Text := b.text ++ ('\n' : CodePoint) :: b.marks.map Mark.sign

/-- Text and marks are of one length. -/
def Aligned (b : Buffer) : Prop := b.text.length = b.marks.length

theorem text_ofTemplate (t : Text) : (ofTemplate t).text = t := by
  simp only [text, ofTemplate, List.map_map]
  exact List.zipIdx_map_fst 0 t

@[simp] theorem aligned_ofTemplate (t : Text) : (ofTemplate t).Aligned := by
  simp [Aligned, ofTemplate, text]

/-! ## 3. Cells -/

/-- A letter with its mark, if it has one. -/
structure Cell extends Letter where
  mark : Option Mark
deriving DecidableEq

/-- A text that is not of the template, every code point of which has the same mark. -/
def Cell.ofText (mark : Mark) (t : Text) : List Cell := t.map fun c => ⟨⟨c, none⟩, some mark⟩

/-- The cells of a template, before anything is put in. -/
def Cell.ofTemplate (t : Text) : List Cell :=
  t.zipIdx.map fun (c, i) => ⟨⟨c, some i⟩, some .trusted⟩

/-- The text of cells. -/
def Cell.text (cells : List Cell) : Text := cells.map (·.char)

@[simp] theorem Cell.text_nil : Cell.text [] = [] := rfl

@[simp] theorem Cell.text_cons (c : Cell) (cells : List Cell) :
    Cell.text (c :: cells) = c.char :: Cell.text cells := rfl

@[simp] theorem Cell.text_append (a b : List Cell) :
    Cell.text (a ++ b) = Cell.text a ++ Cell.text b := List.map_append

@[simp] theorem Cell.text_reverse (cells : List Cell) :
    Cell.text cells.reverse = (Cell.text cells).reverse := List.map_reverse

@[simp] theorem Cell.length_text (cells : List Cell) : (Cell.text cells).length = cells.length :=
  List.length_map _

@[simp] theorem Cell.length_ofText (mark : Mark) (t : Text) :
    (Cell.ofText mark t).length = t.length := by simp [ofText]

@[simp] theorem Cell.text_ofText (mark : Mark) (t : Text) : Cell.text (Cell.ofText mark t) = t := by
  simp only [text, ofText, List.map_map]
  exact List.map_id' t

/-- Every code point of such a text has the mark. -/
theorem Cell.mark_of_mem_ofText {mark : Mark} {v : Text} {c : Cell} (h : c ∈ Cell.ofText mark v) :
    c.mark = some mark := by
  obtain ⟨x, _, rfl⟩ := List.mem_map.mp h
  rfl

@[simp] theorem Cell.text_ofTemplate (t : Text) : Cell.text (Cell.ofTemplate t) = t := by
  simp only [text, ofTemplate, List.map_map]
  exact List.zipIdx_map_fst 0 t

/-- The cells without those of white space at either end. -/
def Cell.strip (cells : List Cell) : List Cell :=
  ((cells.dropWhile (·.char.isBlank)).reverse.dropWhile (·.char.isBlank)).reverse

theorem Cell.text_strip (cells : List Cell) : Cell.text (Cell.strip cells) = (Cell.text cells).strip := by
  simp only [strip, text, Text.strip, Text.stripLeft, Text.stripRight, ← List.map_reverse,
    List.dropWhile_map, Function.comp_def]

theorem Cell.length_strip_le (cells : List Cell) : (Cell.strip cells).length ≤ cells.length := by
  have h := Text.length_strip_le (Cell.text cells)
  rwa [← Cell.text_strip, Cell.length_text, Cell.length_text] at h

/-- Pairs the letters with the marks; those past the last mark have none. -/
def pair : List Letter → List Mark → List Cell
  | [], _ => []
  | l :: letters, [] => ⟨l, none⟩ :: pair letters []
  | l :: letters, m :: marks => ⟨l, some m⟩ :: pair letters marks

/-- The cells of a buffer. -/
def cells (b : Buffer) : List Cell := pair b.letters b.marks

/-- The marks past the end of the text. -/
def spareMarks (b : Buffer) : List Mark := b.marks.drop b.letters.length

/-- The buffer with the given cells, and marks past its end. -/
def ofCells (cells : List Cell) (spare : List Mark) : Buffer :=
  ⟨cells.map Cell.toLetter, cells.filterMap Cell.mark ++ spare⟩

/-- **The cells of a buffer are all of it.** -/
theorem ofCells_cells (b : Buffer) : ofCells b.cells b.spareMarks = b := by
  obtain ⟨ls, ms⟩ := b
  simp only [cells, spareMarks, ofCells]
  have h : ∀ (ls : List Letter) (ms : List Mark),
      (pair ls ms).map Cell.toLetter = ls ∧
        (pair ls ms).filterMap Cell.mark ++ ms.drop ls.length = ms := by
    intro ls
    induction ls with
    | nil => intro ms; simp [pair]
    | cons l ls ih =>
      intro ms
      cases ms with
      | nil =>
        have := ih []
        simp only [pair, List.map_cons, List.filterMap_cons, List.drop_nil,
          List.append_nil, List.cons.injEq, true_and] at this ⊢
        exact this
      | cons m ms =>
        have := ih ms
        simp only [pair, List.map_cons, List.filterMap_cons, List.length_cons,
          List.drop_succ_cons, List.cons_append, List.cons.injEq, true_and] at this ⊢
        exact this
  rw [(h ls ms).1, (h ls ms).2]

/-- Every cell has a mark. -/
def Cell.AllMarked (cells : List Cell) : Prop := ∀ c ∈ cells, c.mark.isSome

/-- **Cells with marks are the cells of their buffer.** -/
theorem cells_ofCells {cells : List Cell} (h : Cell.AllMarked cells) (spare : List Mark) :
    (ofCells cells spare).cells = cells := by
  induction cells with
  | nil => rfl
  | cons c cells ih =>
    obtain ⟨l, m⟩ := c
    obtain ⟨m, rfl⟩ := Option.isSome_iff_exists.mp (h _ List.mem_cons_self)
    have hrest := ih fun d hd => h d (List.mem_cons_of_mem _ hd)
    show (⟨l, some m⟩ : Cell) :: (ofCells cells spare).cells = _
    rw [hrest]

theorem spareMarks_ofCells {cells : List Cell} (h : Cell.AllMarked cells) (spare : List Mark) :
    (ofCells cells spare).spareMarks = spare := by
  induction cells with
  | nil => rfl
  | cons c cells ih =>
    obtain ⟨l, m⟩ := c
    obtain ⟨m, rfl⟩ := Option.isSome_iff_exists.mp (h _ List.mem_cons_self)
    exact ih fun d hd => h d (List.mem_cons_of_mem _ hd)

theorem text_ofCells (cells : List Cell) (spare : List Mark) :
    (ofCells cells spare).text = Cell.text cells := by
  simp [text, ofCells, Cell.text]

/-- The text of a buffer is that of its cells. -/
theorem text_eq (b : Buffer) : b.text = Cell.text b.cells := by
  have htext := text_ofCells b.cells b.spareMarks
  rwa [ofCells_cells] at htext

theorem ofTemplate_eq_ofCells (t : Text) : ofTemplate t = ofCells (Cell.ofTemplate t) [] := by
  simp only [ofTemplate, ofCells, Cell.ofTemplate, List.map_map, List.filterMap_map, List.append_nil]
  congr 1
  have h : ∀ (t : Text) (n : Nat), List.replicate t.length Mark.trusted
      = List.filterMap (fun _ => some Mark.trusted) (t.zipIdx n) := by
    intro t
    induction t with
    | nil => intro n; rfl
    | cons c t ih =>
      intro n
      rw [List.length_cons, List.replicate_succ, List.zipIdx_cons, List.filterMap_cons, ih (n + 1)]
  exact h t 0

theorem Cell.mem_ofTemplate {t : Text} {c : Cell} (h : c ∈ Cell.ofTemplate t) :
    ∃ i, c = ⟨⟨c.char, some i⟩, some .trusted⟩ ∧ t[i]? = some c.char := by
  obtain ⟨⟨d, i⟩, hd, rfl⟩ := List.mem_map.mp h
  exact ⟨i, rfl, List.mem_zipIdx_iff_getElem?.mp hd⟩

theorem Cell.trusted_ofTemplate {t : Text} : ∀ c ∈ Cell.ofTemplate t, c.mark = some .trusted := by
  intro c hc
  obtain ⟨i, hi, _⟩ := Cell.mem_ofTemplate hc
  rw [hi]

theorem Cell.allMarked_ofTemplate (t : Text) : Cell.AllMarked (Cell.ofTemplate t) := by
  intro c hc
  rw [Cell.trusted_ofTemplate c hc]
  rfl

@[simp] theorem cells_ofTemplate (t : Text) : (ofTemplate t).cells = Cell.ofTemplate t := by
  rw [ofTemplate_eq_ofCells, cells_ofCells (Cell.allMarked_ofTemplate t)]

@[simp] theorem spareMarks_ofTemplate (t : Text) : (ofTemplate t).spareMarks = [] := by
  rw [ofTemplate_eq_ofCells, spareMarks_ofCells (Cell.allMarked_ofTemplate t)]

/-- The cells that are no guards. -/
def Cell.unguarded (cells : List Cell) : List Cell := cells.filter fun c => c.mark ≠ some .guarding

/-- **The cleaned-up text is that of the cells that are no guards.** -/
theorem cleanup_ofCells {cells : List Cell} (h : Cell.AllMarked cells) (spare : List Mark) :
    (ofCells cells spare).cleanup = Cell.text (Cell.unguarded cells) := by
  induction cells with
  | nil => simp [cleanup, text, ofCells, Cell.unguarded]
  | cons c cells ih =>
    obtain ⟨l, m⟩ := c
    obtain ⟨m, rfl⟩ := Option.isSome_iff_exists.mp (h _ List.mem_cons_self)
    have hrest := ih fun d hd => h d (List.mem_cons_of_mem _ hd)
    by_cases hm : m = .guarding
    · subst hm
      exact hrest
    · have hl : (ofCells (⟨l, some m⟩ :: cells) spare).cleanup
          = l.char :: (ofCells cells spare).cleanup := by
        simp [cleanup, text, ofCells, hm]
      have hr : Cell.unguarded (⟨l, some m⟩ :: cells) = ⟨l, some m⟩ :: Cell.unguarded cells := by
        simp [Cell.unguarded, hm]
      rw [hl, hr, hrest]
      rfl

end Buffer

end GraphFeed
