import GraphFeed.Proofs.Spelling

/-!
# The lexemes of a written instruction

A run of bare code points or of blanks is as long as it can be, so that the lexemes of a part of a
text are not those the text has there: a name and the comma before it are one lexeme. `Lexeme.push`
puts a lexeme before others and lets it run together with the first of them. A text with `pieces` is
one that puts them before the lexemes of whatever follows (`Lexeme.Cuts`); then the pieces of a text
are those of its parts, in their order (`Lexeme.Cuts.append`), and a text has the pieces that one sees
in it.
-/

namespace GraphFeed

namespace Lexeme

/-! ## 1. Classes of code points -/

section Classes

variable {c : CodePoint}

theorem isBare_bounds (h : isBare c = true) : 44 ≤ c.val ∧ c.val ≤ 122 := by
  simp only [isBare, CodePoint.isDigit, CodePoint.between, Bool.or_eq_true, Bool.and_eq_true,
    decide_eq_true_eq] at h
  rcases h with (((((⟨hlo, hhi⟩ | ⟨hlo, hhi⟩) | ⟨hlo, hhi⟩) | rfl) | rfl) | rfl) | rfl
  · exact ⟨Nat.le_trans (by decide) hlo, Nat.le_trans hhi (by decide)⟩
  · exact ⟨Nat.le_trans (by decide) hlo, Nat.le_trans hhi (by decide)⟩
  · exact ⟨Nat.le_trans (by decide) hlo, Nat.le_trans hhi (by decide)⟩
  all_goals decide

theorem isBare_of_isBlank (h : isBlank c = true) : isBare c = false := by
  have hval : c.val ≤ 32 := by
    simp only [isBlank, CodePoint.between, Bool.or_eq_true, Bool.and_eq_true, decide_eq_true_eq] at h
    rcases h with rfl | ⟨_, hhi⟩
    · decide
    · exact Nat.le_trans hhi (by decide)
  refine Bool.eq_false_iff.mpr fun hbare => ?_
  have hbounds := isBare_bounds hbare
  omega

/-- A quote mark is nothing else. -/
theorem classes_of_isMark (h : isMark c = true) : isBare c = false ∧ isBlank c = false := by
  rcases eq_of_isMark h with rfl | rfl
  · decide
  · decide

/-- A sign is nothing else. -/
theorem classes_of_isSign (h : isSign c = true) :
    isBare c = false ∧ isBlank c = false ∧ isMark c = false := by
  simp only [isSign, Bool.or_eq_true, decide_eq_true_eq] at h
  rcases h with (((((rfl | rfl) | rfl) | rfl) | rfl) | rfl) | rfl
  all_goals decide

end Classes

/-! ## 2. Pieces -/

/-- Puts a lexeme before others. Runs of one kind run together. -/
def push : Lexeme → List Lexeme → List Lexeme
  | .bare run, .bare more :: rest => .bare (run ++ more) :: rest
  | .blank, .blank :: rest => .blank :: rest
  | l, rest => l :: rest

/-- Puts pieces before lexemes. -/
def cut (pieces rest : List Lexeme) : List Lexeme := pieces.foldr push rest

/-- The text is cut into the pieces, whatever follows. -/
def Cuts (t : Text) (pieces : List Lexeme) : Prop :=
  ∀ u, ofText? (t ++ u) = (ofText? u).map (cut pieces)

theorem cut_append (a b rest : List Lexeme) : cut (a ++ b) rest = cut a (cut b rest) :=
  List.foldr_append

/-- The pieces of parts are put before lexemes part by part, the last part first. -/
theorem cut_flatten (parts : List (List Lexeme)) (rest : List Lexeme) :
    cut parts.flatten rest = parts.foldr cut rest := by
  induction parts with
  | nil => rfl
  | cons part parts ih => rw [List.flatten_cons, cut_append, ih, List.foldr_cons]

theorem Cuts.nil : Cuts [] [] := by
  intro u
  exact Option.map_id'.symm

/-- **Texts one after the other have their pieces one after the other.** -/
theorem Cuts.append {t t' : Text} {pieces pieces' : List Lexeme} (h : Cuts t pieces)
    (h' : Cuts t' pieces') : Cuts (t ++ t') (pieces ++ pieces') := by
  intro u
  rw [List.append_assoc, h, h', Option.map_map]
  congr 1
  funext ls
  exact (cut_append _ _ _).symm

/-! ## 3. Lexemes as pieces -/

theorem ofText?_nil : ofText? [] = some [] := by
  rw [ofText?]
  rfl

/-- The lexemes of a text are what its pieces are cut to. -/
theorem Cuts.ofText? {t : Text} {pieces : List Lexeme} (h : Cuts t pieces) :
    ofText? t = some (cut pieces []) := by
  have hnil := h []
  rwa [List.append_nil, ofText?_nil] at hnil

/-- A text that begins with no lexeme has none. -/
theorem ofText?_of_none {t : Text} (hne : t ≠ []) (h : first? t = none) : ofText? t = none := by
  rw [ofText?, if_neg fun hempty => hne (List.isEmpty_iff.mp hempty)]
  split
  · rfl
  · rename_i hsome
    rw [h] at hsome
    cases hsome

/-- The lexemes of a text are the first one and those of the rest. -/
theorem ofText?_of_first {t rest : Text} {l : Lexeme} (h : first? t = some (l, rest)) :
    ofText? t = (ofText? rest).map (l :: ·) := by
  have hne : t.isEmpty = false := by
    cases t with
    | nil => cases h
    | cons c t => rfl
  rw [ofText?, if_neg (by rw [hne]; decide)]
  split
  · rename_i hnone
    rw [hnone] at h
    cases h
  · rename_i l' rest' hsome
    rw [hsome] at h
    cases h
    rfl

theorem exists_first_of_ofText? {t : Text} {l : Lexeme} {ls : List Lexeme}
    (h : ofText? t = some (l :: ls)) : ∃ rest, first? t = some (l, rest) := by
  rw [ofText?] at h
  split at h
  · cases h
  · split at h
    · cases h
    · rename_i l' rest hfirst
      obtain ⟨ls', _, hls⟩ := Option.map_eq_some_iff.mp h
      cases hls
      exact ⟨rest, hfirst⟩

theorem first?_bare {c : CodePoint} (hc : isBare c = true) (t : Text) :
    first? (c :: t) = some (.bare (c :: t.takeWhile isBare), t.dropWhile isBare) := if_pos hc

theorem first?_blank {c : CodePoint} (hc : isBlank c = true) (t : Text) :
    first? (c :: t) = some (.blank, t.dropWhile isBlank) := by
  have hbare := isBare_of_isBlank hc
  simp only [first?, hbare, hc, if_true, Bool.false_eq_true, if_false]

theorem first?_mark {c : CodePoint} (hc : isMark c = true) (t : Text) :
    first? (c :: t)
      = (closing? c t).map fun (inside, after) => (.quoted (c :: (inside ++ [c])), after) := by
  obtain ⟨hbare, hblank⟩ := classes_of_isMark hc
  simp only [first?, hbare, hblank, hc, if_true, Bool.false_eq_true, if_false]

theorem first?_sign {c : CodePoint} (hc : isSign c = true) (t : Text) :
    first? (c :: t) = some (.sign c, t) := by
  obtain ⟨hbare, hblank, hmark⟩ := classes_of_isSign hc
  simp only [first?, hbare, hblank, hmark, hc, if_true, Bool.false_eq_true, if_false]

/-- A run at the beginning begins with a code point of its kind. -/
theorem class_of_first? {c : CodePoint} {t rest : Text} {l : Lexeme}
    (h : first? (c :: t) = some (l, rest)) :
    (∀ run, l = .bare run → isBare c = true) ∧ (l = .blank → isBlank c = true) := by
  by_cases hbare : isBare c = true
  · rw [first?_bare hbare] at h
    cases h
    exact ⟨fun _ _ => hbare, fun hl => by cases hl⟩
  · by_cases hblank : isBlank c = true
    · rw [first?_blank hblank] at h
      cases h
      exact ⟨fun _ hl => (by cases hl), fun _ => hblank⟩
    · by_cases hmark : isMark c = true
      · rw [first?_mark hmark] at h
        obtain ⟨_, _, hl⟩ := Option.map_eq_some_iff.mp h
        cases hl
        exact ⟨fun _ hl => (by cases hl), fun hl => by cases hl⟩
      · rw [first?, if_neg hbare, if_neg hblank, if_neg hmark] at h
        split at h
        · cases h
          exact ⟨fun _ hl => (by cases hl), fun hl => by cases hl⟩
        · cases h

/-- **A bare run is a piece**, which runs together with a bare run that follows. -/
theorem cuts_bare {run : Text} (hne : run ≠ []) (hrun : ∀ c ∈ run, isBare c = true) :
    Cuts run [.bare run] := by
  intro u
  obtain ⟨c, tail, rfl⟩ := List.exists_cons_of_ne_nil hne
  obtain ⟨hc, htail⟩ := List.forall_mem_cons.mp hrun
  have hfirst : first? (c :: tail ++ u)
      = some (.bare (c :: tail ++ u.takeWhile isBare), u.dropWhile isBare) := by
    rw [List.cons_append, first?_bare hc, List.takeWhile_append_of_pos htail,
      List.dropWhile_append_of_pos htail]
    rfl
  rw [ofText?_of_first hfirst]
  cases u with
  | nil => rw [List.takeWhile_nil, List.dropWhile_nil, ofText?_nil, List.append_nil]; rfl
  | cons d u =>
    by_cases hd : isBare d = true
    · rw [List.takeWhile_cons_of_pos hd, List.dropWhile_cons_of_pos hd,
        ofText?_of_first (first?_bare hd u), Option.map_map]
      rfl
    · rw [List.takeWhile_cons_of_neg hd, List.dropWhile_cons_of_neg hd, List.append_nil]
      cases hls : ofText? (d :: u) with
      | none => rfl
      | some ls =>
        cases ls with
        | nil => rfl
        | cons l ls =>
          obtain ⟨rest, hl⟩ := exists_first_of_ofText? hls
          cases l with
          | bare run => exact absurd ((class_of_first? hl).1 run rfl) hd
          | quoted | blank | sign => rfl

/-- **A run of blanks is a piece**, which runs together with one that follows. -/
theorem cuts_blank {run : Text} (hne : run ≠ []) (hrun : ∀ c ∈ run, isBlank c = true) :
    Cuts run [.blank] := by
  intro u
  obtain ⟨c, tail, rfl⟩ := List.exists_cons_of_ne_nil hne
  obtain ⟨hc, htail⟩ := List.forall_mem_cons.mp hrun
  have hfirst : first? (c :: tail ++ u) = some (.blank, u.dropWhile isBlank) := by
    rw [List.cons_append, first?_blank hc, List.dropWhile_append_of_pos htail]
  rw [ofText?_of_first hfirst]
  cases u with
  | nil => rw [List.dropWhile_nil, ofText?_nil]; rfl
  | cons d u =>
    by_cases hd : isBlank d = true
    · rw [List.dropWhile_cons_of_pos hd, ofText?_of_first (first?_blank hd u), Option.map_map]
      rfl
    · rw [List.dropWhile_cons_of_neg hd]
      cases hls : ofText? (d :: u) with
      | none => rfl
      | some ls =>
        cases ls with
        | nil => rfl
        | cons l ls =>
          obtain ⟨rest, hl⟩ := exists_first_of_ofText? hls
          cases l with
          | blank => exact absurd ((class_of_first? hl).2 rfl) hd
          | quoted | bare | sign => rfl

theorem cuts_sign {c : CodePoint} (hc : isSign c = true) : Cuts [c] [.sign c] :=
  fun u => ofText?_of_first (first?_sign hc u)

/-- **A quoted text is a piece**, if the mark behind it closes it. -/
theorem cuts_quoted {mark : CodePoint} {inside : Text} (hmark : isMark mark = true)
    (h : ∀ t, closing? mark (inside ++ mark :: t) = some (inside, t)) :
    Cuts (.concat [[mark], inside, [mark]]) [.quoted (.concat [[mark], inside, [mark]])] := by
  intro u
  have hfirst : first? (mark :: (inside ++ mark :: u))
      = some (.quoted (mark :: (inside ++ [mark])), u) := by
    rw [first?_mark hmark, h]
    rfl
  have htext : Text.concat [[mark], inside, [mark]] ++ u = mark :: (inside ++ mark :: u) := by
    show mark :: (inside ++ [mark]) ++ u = _
    rw [List.cons_append, List.append_assoc]
    rfl
  rw [htext, ofText?_of_first hfirst]
  rfl

end Lexeme

namespace Spelling

open Lexeme (Cuts cuts_sign)

/-! ## 4. Blanks, commas and operators -/

/-- The pieces of a gap: one, if it is not empty. -/
def Gap.pieces (g : Gap) : List Lexeme :=
  match g.text with
  | [] => []
  | _ :: _ => [.blank]

theorem Gap.cuts (g : Gap) : Cuts g.text g.pieces := by
  unfold Gap.pieces
  split
  · rename_i htext
    rw [htext]
    exact .nil
  · rename_i htext
    exact Lexeme.cuts_blank (by rw [htext]; exact List.cons_ne_nil _ _) g.blank

theorem Gap.pieces_eq (g : Gap) : g.pieces = [] ∨ g.pieces = [.blank] := by
  unfold Gap.pieces
  split
  · exact .inl rfl
  · exact .inr rfl

theorem Space.pieces_eq (s : Space) : s.pieces = [.blank] := by
  unfold Gap.pieces
  split
  · exact absurd ‹_› s.ne_nil
  · rfl

/-- A comma as a piece. It is a bare code point. -/
def comma : Lexeme := .bare ","

theorem cuts_comma : Cuts "," [comma] := Lexeme.cuts_bare (by decide) (by decide)

/-- The sign of an operation as a piece. A hyphen is a bare code point. -/
def signPiece : Arithmetic → Lexeme
  | .subtract => .bare "-"
  | a => .sign a.sign

theorem cuts_signPiece (a : Arithmetic) : Cuts [a.sign] [signPiece a] := by
  cases a with
  | subtract => exact Lexeme.cuts_bare (by decide) (by decide)
  | add | multiply | divide => exact cuts_sign (by decide)

end Spelling

end GraphFeed
