import GraphFeed.Instruction.Tree

/-!
# Lexemes of an instruction

A text is cut into lexemes from left to right: runs of bare code points, quoted texts, runs of
blanks, and single signs. A run is as long as it can be. Commas and hyphens are bare code points,
although a comma may separate two properties and a hyphen begin an operator; how a run of them is
read is for `Parser.ofLexemes` to say. A text with anything else in it has no lexemes.
-/

namespace GraphFeed

/-- A piece of an instruction. -/
inductive Lexeme
  /-- A run of letters, digits, hyphens, underscores, points and commas. -/
  | bare (run : Text)
  /-- A quoted text with its marks. -/
  | quoted (text : Text)
  | blank
  | sign (c : CodePoint)
deriving DecidableEq

namespace Lexeme

/-! ## 1. Classes -/

/-- A code point that may stand in a text without quotes. -/
def isBare (c : CodePoint) : Bool :=
  c.isDigit || c.between 'a' 'z' || c.between 'A' 'Z' ||
    c = '-' || c = '_' || c = '.' || c = ','

/-- A code point of a run of blanks. -/
def isBlank (c : CodePoint) : Bool := c = ' ' || c.between '\t' '\x0c'

/-- A code point that is a lexeme of its own. -/
def isSign (c : CodePoint) : Bool :=
  c = ':' || c = '=' || c = '(' || c = ')' || c = '+' || c = '*' || c = '/'

/-- A quote mark. -/
def isMark (c : CodePoint) : Bool := c = '"' || c = '\''

/-! ## 2. Quoted texts -/

/-- What stands before the closing `mark`, and what comes after it. No line end may stand between
    the marks, and the code point after a backslash closes nothing. -/
def closing? (mark : CodePoint) : Text → Option (Text × Text)
  | [] => none
  | c :: t =>
    if c = mark then some ([], t)
    else if c = '\n' then none
    else if c = '\\' then
      match t with
      | [] => none
      | d :: t' =>
        if d = '\n' then none
        else (closing? mark t').map fun (inside, after) => (c :: d :: inside, after)
    else (closing? mark t).map fun (inside, after) => (c :: inside, after)

/-- **What stands between the marks, the closing mark and the rest are all of the text.** -/
theorem closing?_eq {mark : CodePoint} {t inside after : Text}
    (h : closing? mark t = some (inside, after)) : t = inside ++ mark :: after := by
  fun_induction closing? mark t generalizing inside after with
  | case1 => cases h
  | case2 t => cases h; rfl
  | case3 => cases h
  | case4 => cases h
  | case5 => cases h
  | case6 hm hn d t' hd ih =>
    obtain ⟨⟨i, a⟩, hi, he⟩ := Option.map_eq_some_iff.1 h
    cases he
    rw [ih hi]; rfl
  | case7 c t hm hn hb ih =>
    obtain ⟨⟨i, a⟩, hi, he⟩ := Option.map_eq_some_iff.1 h
    cases he
    rw [ih hi]; rfl

/-! ## 3. Cutting -/

/-- The first lexeme of a text, and the rest. -/
def first? : Text → Option (Lexeme × Text)
  | [] => none
  | c :: t =>
    if isBare c then some (.bare (c :: t.takeWhile isBare), t.dropWhile isBare)
    else if isBlank c then some (.blank, t.dropWhile isBlank)
    else if isMark c then
      (closing? c t).map fun (inside, after) => (.quoted (c :: (inside ++ [c])), after)
    else if isSign c then some (.sign c, t)
    else none

theorem length_dropWhile_le {α : Type _} (p : α → Bool) (l : List α) :
    (l.dropWhile p).length ≤ l.length := (List.dropWhile_sublist p).length_le

/-- A lexeme takes something away. -/
theorem first?_length {t rest : Text} {l : Lexeme} (h : first? t = some (l, rest)) :
    rest.length < t.length := by
  cases t with
  | nil => cases h
  | cons c t =>
    simp only [first?] at h
    split at h
    · cases h
      have := length_dropWhile_le isBare t
      simp only [List.length_cons]; omega
    · split at h
      · cases h
        have := length_dropWhile_le isBlank t
        simp only [List.length_cons]; omega
      · split at h
        · obtain ⟨⟨i, a⟩, hi, he⟩ := Option.map_eq_some_iff.1 h
          cases he
          rw [closing?_eq hi]
          simp only [List.length_cons, List.length_append]; omega
        · split at h
          · cases h; simp
          · cases h

/-- The lexemes of a text. -/
def ofText? (t : Text) : Option (List Lexeme) :=
  if t.isEmpty then some []
  else
    match h : first? t with
    | none => none
    | some (l, rest) =>
      have : rest.length < t.length := first?_length h
      (ofText? rest).map (l :: ·)
termination_by t.length

/-! ## 4. Words -/

/-- A lexeme that is no sign. -/
def isWord : Lexeme → Bool
  | .sign _ => false
  | _ => true

/-- The token that a lexeme is, if it is one. -/
def token? : Lexeme → Option Token
  | .bare run => some (.bare run)
  | .quoted text => some (.quoted text)
  | _ => none

/-- The lexemes without a blank at the beginning. -/
def dropBlank : List Lexeme → List Lexeme
  | .blank :: rest => rest
  | ls => ls

/-- The token that lexemes are, blanks at the beginning and at the end aside. -/
def word? (ls : List Lexeme) : Option Token :=
  match dropBlank ls with
  | [l] => l.token?
  | [l, .blank] => l.token?
  | _ => none

theorem length_dropBlank_le (ls : List Lexeme) : (dropBlank ls).length ≤ ls.length := by
  unfold dropBlank; split <;> simp

end Lexeme

end GraphFeed
