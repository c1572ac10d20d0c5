import GraphFeed.Instruction.Parsing
import GraphFeed.Proofs.Cutting

/-!
# Properties are read from their pieces

Commas and hyphens are bare code points, so that the lexemes between two signs do not show where a
name ends and an operator begins, or a value ends and the next name begins.

* The words before a sign are what their pieces are cut to (`Lexeme.span_cut`), and the hyphen of an
  operator is the last of them (`Parsing.takeHyphen_cut`), so that a list of properties is cut behind
  each link (`Spelling.readSegments_set` and those that follow it).
* The comma between a value and the next name is one of those that may separate them
  (`Parsing.mem_commas_cut`). It is the only one if the two have no comma of their own
  (`Parsing.eq_of_mem_separations`).
-/

namespace GraphFeed

open Lexeme (push cut isWord word? dropBlank)

/-! ## 1. Words up to a sign -/

namespace Lexeme

variable {l : Lexeme} {ls pieces : List Lexeme}

theorem push_append_sign (l : Lexeme) (ls : List Lexeme) (c : CodePoint) (rest : List Lexeme) :
    push l (ls ++ .sign c :: rest) = push l ls ++ .sign c :: rest := by
  cases ls with
  | nil => cases l <;> rfl
  | cons m ls => cases l <;> cases m <;> rfl

/-- Nothing runs together with a sign. -/
theorem cut_sign (pieces : List Lexeme) (c : CodePoint) (rest : List Lexeme) :
    cut pieces (.sign c :: rest) = cut pieces [] ++ .sign c :: rest := by
  induction pieces with
  | nil => rfl
  | cons l pieces ih =>
    have hstep := push_append_sign l (cut pieces []) c rest
    rw [← ih] at hstep
    exact hstep

theorem forall_mem_push {P : Lexeme → Prop}
    (hbare : ∀ a b, P (.bare a) → P (.bare b) → P (.bare (a ++ b))) (hl : P l)
    (h : ∀ x ∈ ls, P x) : ∀ x ∈ push l ls, P x := by
  have hcons := List.forall_mem_cons.mpr ⟨hl, h⟩
  cases ls with
  | nil => cases l <;> exact hcons
  | cons m ls =>
    obtain ⟨hm, hrest⟩ := List.forall_mem_cons.mp h
    cases l with
    | bare a =>
      cases m with
      | bare b => exact List.forall_mem_cons.mpr ⟨hbare a b hl hm, hrest⟩
      | quoted | blank | sign => exact hcons
    | blank =>
      cases m with
      | blank => exact h
      | quoted | bare | sign => exact hcons
    | quoted | sign => exact hcons

/-- What holds of pieces and of runs together holds of the lexemes they are cut to. -/
theorem forall_mem_cut {P : Lexeme → Prop}
    (hbare : ∀ a b, P (.bare a) → P (.bare b) → P (.bare (a ++ b))) (h : ∀ l ∈ pieces, P l) :
    ∀ x ∈ cut pieces [], P x := by
  induction pieces with
  | nil => exact nofun
  | cons l pieces ih =>
    obtain ⟨hl, hrest⟩ := List.forall_mem_cons.mp h
    exact forall_mem_push hbare hl (ih hrest)

/-- **Words reach to the next sign.** -/
theorem span_cut (h : ∀ l ∈ pieces, isWord l = true) (c : CodePoint) (rest : List Lexeme) :
    (cut pieces (.sign c :: rest)).takeWhile isWord = cut pieces [] ∧
      (cut pieces (.sign c :: rest)).dropWhile isWord = .sign c :: rest := by
  have hwords : ∀ x ∈ cut pieces [], isWord x = true :=
    forall_mem_cut (fun _ _ _ _ => rfl) h
  rw [cut_sign]
  constructor
  · rw [List.takeWhile_append_of_pos hwords]
    exact List.append_nil _
  · rw [List.dropWhile_append_of_pos hwords]
    rfl

end Lexeme

namespace Parsing

variable {l : Lexeme} {ls ls' pieces : List Lexeme}

/-! ## 2. Runs -/

theorem push_bareRun {run : Text} (hne : run ≠ []) (t : Text) :
    push (.bare run) (bareRun t) = bareRun (run ++ t) := by
  obtain ⟨c, run, rfl⟩ := List.exists_cons_of_ne_nil hne
  cases t with
  | nil => rw [List.append_nil]; rfl
  | cons d t => rfl

theorem push_bareRun_of_notRun (hl : isRun l = false) (t : Text) :
    push l (bareRun t) = l :: bareRun t := by
  cases l with
  | bare run => cases hl
  | quoted | blank | sign => cases t <;> rfl

/-- What runs together with a lexeme does not depend on what follows. -/
theorem exists_push_cons (l m : Lexeme) :
    ∃ front, ∀ rest, push l (m :: rest) = front ++ rest := by
  cases l with
  | bare a =>
    cases m with
    | bare b => exact ⟨[.bare (a ++ b)], fun _ => rfl⟩
    | quoted | blank | sign => exact ⟨[_, _], fun _ => rfl⟩
  | blank =>
    cases m with
    | blank => exact ⟨[.blank], fun _ => rfl⟩
    | quoted | bare | sign => exact ⟨[_, _], fun _ => rfl⟩
  | quoted | sign => exact ⟨[_, _], fun _ => rfl⟩

/-! ## 3. The hyphen of an operator -/

theorem takeHyphen_append (front : List Lexeme) (hne : ls ≠ []) :
    takeHyphen (front ++ ls) = (takeHyphen ls).map (front ++ ·) := by
  have hlast : (front ++ ls).getLast? = ls.getLast? := by
    rw [List.getLast?_append]
    obtain ⟨last, hlast⟩ := Option.isSome_iff_exists.mp (List.getLast?_isSome.mpr hne)
    rw [hlast, Option.some_or]
  have hinit : (front ++ ls).dropLast = front ++ ls.dropLast := List.dropLast_append_of_ne_nil hne
  unfold takeHyphen
  rw [hlast, hinit]
  split
  · split
    · rw [Option.map_some]
      split
      · rfl
      · rw [List.append_assoc]
    · rfl
  · rfl

theorem takeHyphen_run (front : Text) :
    takeHyphen [.bare (front ++ [('-' : CodePoint)])] = some (bareRun front) := by
  have hlast : (front ++ [('-' : CodePoint)]).getLast? = some ('-' : CodePoint) := List.getLast?_concat
  unfold takeHyphen
  rw [List.getLast?_singleton]
  dsimp only
  rw [if_pos hlast]
  cases front with
  | nil => rfl
  | cons c front =>
    rw [if_neg (by rw [List.length_append, List.length_cons, List.length_singleton]; omega),
      List.dropLast_concat]
    rfl

theorem exists_of_takeHyphen_run {run : Text} (h : takeHyphen [.bare run] = some ls') :
    ∃ front, run = front ++ [('-' : CodePoint)] := by
  have hhyphen : run.getLast? = some ('-' : CodePoint) := by
    unfold takeHyphen at h
    by_cases hlast : run.getLast? = some ('-' : CodePoint)
    · exact hlast
    · rw [List.getLast?_singleton] at h
      dsimp only at h
      rw [if_neg hlast] at h
      cases h
  exact List.getLast?_eq_some_iff.mp hhyphen

theorem takeHyphen_push (hl : l ≠ .bare []) (h : takeHyphen ls = some ls') :
    takeHyphen (push l ls) = some (push l ls') := by
  cases ls with
  | nil => cases h
  | cons m rest =>
    by_cases hrest : rest = []
    · -- the words are one run, which ends in the hyphen
      subst hrest
      cases m with
      | bare run =>
        obtain ⟨front, rfl⟩ := exists_of_takeHyphen_run h
        rw [takeHyphen_run] at h
        cases h
        cases l with
        | bare run =>
          have hne : run ≠ [] := fun hnil => hl (congrArg Lexeme.bare hnil)
          have hrun := takeHyphen_run (run ++ front)
          rw [List.append_assoc] at hrun
          rw [push_bareRun hne]
          exact hrun
        | quoted | blank | sign =>
          rw [push_bareRun_of_notRun rfl]
          exact (takeHyphen_append [_] (List.cons_ne_nil _ _)).trans
            (congrArg (Option.map _) (takeHyphen_run front))
      | quoted | blank | sign => cases h
    · have hm : takeHyphen (m :: rest) = (takeHyphen rest).map ([m] ++ ·) :=
        takeHyphen_append [m] hrest
      rw [hm] at h
      obtain ⟨rest', hrest', rfl⟩ := Option.map_eq_some_iff.mp h
      obtain ⟨front, hfront⟩ := exists_push_cons l m
      rw [hfront, takeHyphen_append front hrest, hrest', List.singleton_append, hfront]
      rfl

/-- **The hyphen of an operator is taken away from the words before it.** -/
theorem takeHyphen_cut (h : ∀ l ∈ pieces, l ≠ .bare []) :
    takeHyphen (cut pieces [.bare "-"]) = some (cut pieces []) := by
  induction pieces with
  | nil => rfl
  | cons l pieces ih =>
    obtain ⟨hl, hrest⟩ := List.forall_mem_cons.mp h
    exact takeHyphen_push hl (ih hrest)

/-! ## 4. The comma between two properties -/

/-- A piece that a list of properties may have between two signs. -/
def IsPart (l : Lexeme) : Prop := isWord l = true ∧ l ≠ .bare []

/-- A lexeme without commas that could separate two properties. -/
def Plain : Lexeme → Prop
  | .bare run => (',' : CodePoint) ∉ run
  | _ => True

theorem plain_bareRun {run : Text} (h : ∀ l ∈ bareRun run, Plain l) : (',' : CodePoint) ∉ run := by
  cases run with
  | nil => exact List.not_mem_nil
  | cons c run => exact h _ (List.mem_singleton_self _)

theorem notMem_commas_of_plain {before after : List Lexeme} (h : ∀ l ∈ ls, Plain l) :
    (before, after) ∉ commas ls := by
  induction ls generalizing before with
  | nil => exact List.not_mem_nil
  | cons l ls ih =>
    obtain ⟨hl, hrest⟩ := List.forall_mem_cons.mp h
    intro hmem
    cases l with
    | bare run =>
      rcases mem_commas_bare.mp hmem with ⟨front, back, hrun, _⟩ | ⟨before, hmem, _⟩
      · exact hl (hrun ▸ List.mem_append_right _ List.mem_cons_self)
      · exact ih hrest hmem
    | quoted | blank | sign =>
      obtain ⟨before, hmem, _⟩ := (mem_commas_cons rfl).mp hmem
      exact ih hrest hmem

/-- A piece before words goes to what is before each of their commas. -/
theorem mem_commas_push {before after : List Lexeme} (hl : l ≠ .bare [])
    (h : (before, after) ∈ commas ls) : (push l before, after) ∈ commas (push l ls) := by
  cases ls with
  | nil => exact absurd h List.not_mem_nil
  | cons m rest =>
    cases m with
    | bare more =>
      rcases mem_commas_bare.mp h with ⟨front, back, rfl, rfl, rfl⟩ | ⟨before, hmem, rfl⟩
      · cases l with
        | bare run =>
          rw [push_bareRun fun hnil => hl (congrArg Lexeme.bare hnil)]
          exact mem_commas_bare.mpr (.inl ⟨run ++ front, back, (List.append_assoc ..).symm, rfl, rfl⟩)
        | quoted | blank | sign =>
          rw [push_bareRun_of_notRun rfl]
          exact (mem_commas_cons rfl).mpr ⟨_, h, rfl⟩
      · cases l with
        | bare run => exact mem_commas_bare.mpr (.inr ⟨before, hmem, rfl⟩)
        | quoted | blank | sign => exact (mem_commas_cons rfl).mpr ⟨_, h, rfl⟩
    | quoted | sign =>
      obtain ⟨before, _, rfl⟩ := (mem_commas_cons rfl).mp h
      cases l with
      | bare run => exact mem_commas_bare.mpr (.inr ⟨_, h, rfl⟩)
      | quoted | blank | sign => exact (mem_commas_cons rfl).mpr ⟨_, h, rfl⟩
    | blank =>
      obtain ⟨before, _, rfl⟩ := (mem_commas_cons rfl).mp h
      cases l with
      | bare run => exact mem_commas_bare.mpr (.inr ⟨_, h, rfl⟩)
      | blank => exact h
      | quoted | sign => exact (mem_commas_cons rfl).mpr ⟨_, h, rfl⟩

/-- The comma before words is one of their commas. -/
theorem mem_commas_comma {ls : List Lexeme} (h : ∀ l ∈ ls.head?, l ≠ .bare []) :
    ([], ls) ∈ commas (push Spelling.comma ls) := by
  cases ls with
  | nil => exact mem_commas_bare.mpr (.inl ⟨[], [], rfl, rfl, rfl⟩)
  | cons l rest =>
    cases l with
    | bare more =>
      obtain ⟨c, more, rfl⟩ :=
        List.exists_cons_of_ne_nil fun hnil => h _ rfl (congrArg Lexeme.bare hnil)
      exact mem_commas_bare.mpr (.inl ⟨[], c :: more, rfl, rfl, rfl⟩)
    | quoted | blank | sign => exact mem_commas_bare.mpr (.inl ⟨[], [], rfl, rfl, rfl⟩)

/-- **A comma between pieces is one of those that may separate.** -/
theorem mem_commas_cut {before after : List Lexeme} (hbefore : ∀ l ∈ before, IsPart l)
    (hafter : ∀ l ∈ after, IsPart l) :
    (cut before [], cut after []) ∈ commas (cut (before ++ Spelling.comma :: after) []) := by
  induction before with
  | nil =>
    have hne : ∀ l ∈ cut after [], l ≠ .bare [] := by
      refine Lexeme.forall_mem_cut (fun a b ha _ hnil => ha ?_) fun l hl => (hafter l hl).2
      rw [List.append_eq_nil_iff.mp (Lexeme.bare.inj hnil) |>.1]
    exact mem_commas_comma fun l hl => hne l (List.mem_of_mem_head? hl)
  | cons l before ih =>
    obtain ⟨hl, hrest⟩ := List.forall_mem_cons.mp hbefore
    exact mem_commas_push hl.2 (ih hrest)

/-- **A comma between plain words is the only one.** -/
theorem eq_of_mem_commas {words before after before' after' : List Lexeme}
    (h : (before, after) ∈ commas words) (h' : (before', after') ∈ commas words)
    (hbefore : ∀ l ∈ before, Plain l) (hafter : ∀ l ∈ after, Plain l) :
    before' = before ∧ after' = after := by
  induction words generalizing before before' with
  | nil => exact absurd h List.not_mem_nil
  | cons l words ih =>
    cases l with
    | bare run =>
      rcases mem_commas_bare.mp h with ⟨front, back, rfl, rfl, rfl⟩ | ⟨before, hmem, rfl⟩
      · obtain ⟨hback, hrest⟩ := List.forall_mem_append.mp hafter
        rcases mem_commas_bare.mp h' with ⟨front', back', hrun, rfl, rfl⟩ | ⟨before', hmem', rfl⟩
        · -- the comma of the run is the only one in it
          obtain ⟨rfl, _, rfl⟩ := (List.append_cons_inj_of_notMem (plain_bareRun hbefore)
            (plain_bareRun hback)).mp hrun
          exact ⟨rfl, rfl⟩
        · exact absurd hmem' (notMem_commas_of_plain hrest)
      · obtain ⟨hrun, hbefore⟩ := List.forall_mem_cons.mp hbefore
        rcases mem_commas_bare.mp h' with ⟨front', back', rfl, _⟩ | ⟨before', hmem', rfl⟩
        · exact absurd (List.mem_append_right _ List.mem_cons_self) hrun
        · obtain ⟨rfl, rfl⟩ := ih hmem hmem' hbefore
          exact ⟨rfl, rfl⟩
    | quoted | blank | sign =>
      obtain ⟨before, hmem, rfl⟩ := (mem_commas_cons rfl).mp h
      obtain ⟨before', hmem', rfl⟩ := (mem_commas_cons rfl).mp h'
      obtain ⟨rfl, rfl⟩ := ih hmem hmem' (List.forall_mem_cons.mp hbefore).2
      exact ⟨rfl, rfl⟩

end Parsing

/-- The token has no comma that could separate two properties. -/
def Token.Plain : Token → Prop
  | .bare run => (',' : CodePoint) ∉ run
  | .quoted _ => True

namespace Parsing

theorem plain_of_token? {token : Token} (h : l.token? = some token) (htoken : token.Plain) : Plain l := by
  cases l with
  | bare run =>
    cases h
    exact htoken
  | quoted => trivial
  | blank | sign => cases h

/-- Words that are a plain token are plain. -/
theorem plain_of_word? {token : Token} (h : word? ls = some token) (htoken : token.Plain) :
    ∀ l ∈ ls, Plain l := by
  have hrest : ∀ l ∈ dropBlank ls, Plain l := by
    unfold word? at h
    split at h
    · rename_i l hl
      rw [hl]
      exact List.forall_mem_singleton.mpr (plain_of_token? h htoken)
    · rename_i l hl
      rw [hl]
      exact List.forall_mem_cons.mpr ⟨plain_of_token? h htoken, List.forall_mem_singleton.mpr trivial⟩
    · cases h
  unfold dropBlank at hrest
  split at hrest
  · exact List.forall_mem_cons.mpr ⟨trivial, hrest⟩
  · exact hrest

/-- **Words that can be read as a plain value and a plain name can be read so only.** -/
theorem eq_of_mem_separations {words : List Lexeme} {p q : Token × Token} (hp : p ∈ separations words)
    (hq : q ∈ separations words) (hvalue : p.1.Plain) (hname : p.2.Plain) : q = p := by
  obtain ⟨before, after, hcomma, hbefore, hafter⟩ := mem_separations_iff.mp hp
  obtain ⟨before', after', hcomma', hbefore', hafter'⟩ := mem_separations_iff.mp hq
  obtain ⟨rfl, rfl⟩ := eq_of_mem_commas hcomma hcomma' (plain_of_word? hbefore hvalue)
    (plain_of_word? hafter hname)
  rw [hbefore] at hbefore'
  rw [hafter] at hafter'
  exact Prod.ext (Option.some.inj hbefore').symm (Option.some.inj hafter').symm

/-- Words that can be separated are separated somehow. -/
theorem exists_separate? {words : List Lexeme} {p : Token × Token} (h : p ∈ separations words)
    (last : Bool) : ∃ q, separate? last words = some q := by
  have hne := List.ne_nil_of_mem h
  unfold separate?
  cases last with
  | true => exact Option.isSome_iff_exists.mp (List.getLast?_isSome.mpr hne)
  | false => exact Option.isSome_iff_exists.mp (List.isSome_head?.mpr hne)

end Parsing

/-! ## 5. Words and blanks -/

namespace Spelling

/-- A piece between blanks. -/
def padded (before : Gap) (l : Lexeme) (after : Gap) : List Lexeme :=
  [before.pieces, [l], after.pieces].flatten

theorem cut_padded (before : Gap) (l : Lexeme) (after : Gap) (rest : List Lexeme) :
    cut (padded before l after) rest = cut before.pieces (push l (cut after.pieces rest)) :=
  Lexeme.cut_flatten _ rest

theorem forall_mem_gap {P : Lexeme → Prop} (hblank : P .blank) (g : Gap) : ∀ x ∈ g.pieces, P x := by
  rcases g.pieces_eq with h | h
  · rw [h]
    exact nofun
  · rw [h]
    exact List.forall_mem_singleton.mpr hblank

theorem forall_mem_padded {P : Lexeme → Prop} (hblank : P .blank) (before after : Gap) {l : Lexeme}
    (hl : P l) : ∀ x ∈ padded before l after, P x := by
  intro x hx
  obtain ⟨part, hpart, hx⟩ := List.mem_flatten.mp hx
  simp only [List.mem_cons, List.not_mem_nil, or_false] at hpart
  rcases hpart with rfl | rfl | rfl
  · exact forall_mem_gap hblank before x hx
  · rw [List.mem_singleton.mp hx]
    exact hl
  · exact forall_mem_gap hblank after x hx

theorem word?_padded (before after : Gap) {l : Lexeme} {t : Token} (hl : l.token? = some t) :
    word? (cut (padded before l after) []) = some t := by
  unfold padded
  rcases before.pieces_eq with hbefore | hbefore
  · rcases after.pieces_eq with hafter | hafter
    · rw [hbefore, hafter]
      cases l with
      | bare | quoted => exact hl
      | blank | sign => cases hl
    · rw [hbefore, hafter]
      cases l with
      | bare | quoted => exact hl
      | blank | sign => cases hl
  · rcases after.pieces_eq with hafter | hafter
    · rw [hbefore, hafter]
      cases l with
      | bare | quoted => exact hl
      | blank | sign => cases hl
    · rw [hbefore, hafter]
      cases l with
      | bare | quoted => exact hl
      | blank | sign => cases hl

/-- Blanks before another lexeme are passed over. -/
theorem dropBlank_cut (g : Gap) {l : Lexeme} (hl : l ≠ .blank) (rest : List Lexeme) :
    dropBlank (cut g.pieces (l :: rest)) = l :: rest := by
  rcases g.pieces_eq with h | h
  · rw [h]
    cases l with
    | blank => exact absurd rfl hl
    | bare | quoted | sign => rfl
  · rw [h]
    cases l with
    | blank => exact absurd rfl hl
    | bare | quoted | sign => rfl

theorem dropBlank_sign (g : Gap) (c : CodePoint) (rest : List Lexeme) :
    dropBlank (cut g.pieces (.sign c :: rest)) = .sign c :: rest :=
  dropBlank_cut g (l := .sign c) nofun rest

/-- A word comes first, whatever runs together with it. -/
theorem exists_push_word {l : Lexeme} {t : Token} (hl : l.token? = some t) (ls : List Lexeme) :
    ∃ m rest, push l ls = m :: rest ∧ m ≠ .blank ∧ isWord m = true := by
  cases l with
  | bare run =>
    cases ls with
    | nil => exact ⟨_, _, rfl, nofun, rfl⟩
    | cons m rest => cases m <;> exact ⟨_, _, rfl, nofun, rfl⟩
  | quoted => exact ⟨_, _, rfl, nofun, rfl⟩
  | blank | sign => cases hl

theorem dropBlank_word (g : Gap) {l : Lexeme} {t : Token} (hl : l.token? = some t)
    (ls : List Lexeme) : dropBlank (cut g.pieces (push l ls)) = push l ls := by
  obtain ⟨m, rest, hpush, hm, _⟩ := exists_push_word hl ls
  rw [hpush]
  exact dropBlank_cut g hm rest

/-- A word is read if no bare run follows. -/
theorem readToken_word {l : Lexeme} {t : Token} (hl : l.token? = some t) {ls : List Lexeme}
    (h : ∀ m ∈ ls.head?, Parsing.isRun m = false) :
    Parsing.readToken (push l ls) = some (t, ls) := by
  cases l with
  | bare run =>
    cases hl
    cases ls with
    | nil => rfl
    | cons m rest =>
      have hm := h m rfl
      cases m with
      | bare more => cases hm
      | quoted | blank | sign => rfl
  | quoted =>
    cases hl
    rfl
  | blank | sign => cases hl

end Spelling

/-! ## 6. Links -/

namespace Parsing

/-- A list of properties ends with the words before its closing sign. -/
theorem readSegments_closing (h : ∀ l ∈ pieces, isWord l = true) (rest : List Lexeme) :
    readSegments (cut pieces (.sign ')' :: rest)) = some ([], cut pieces [], rest) := by
  obtain ⟨htake, hdrop⟩ := Lexeme.span_cut h ')' rest
  rw [readSegments]
  split
  · rename_i hnil
    rw [hnil] at hdrop
    cases hdrop
  · rename_i hcons
    rw [hcons] at hdrop
    cases hdrop
    rw [if_pos rfl, htake]

/-- A list of properties is cut behind a link, if one begins at the first sign. -/
theorem readSegments_sign (h : ∀ l ∈ pieces, isWord l = true) {c : CodePoint} (hc : c ≠ ')')
    {after words rest : List Lexeme} {link : Link}
    (hlink : readLink (cut pieces []) (.sign c :: after) = some (words, link, rest)) :
    readSegments (cut pieces (.sign c :: after))
      = (readSegments rest).map fun (segments, last, rest) =>
        ((words, link) :: segments, last, rest) := by
  obtain ⟨htake, hdrop⟩ := Lexeme.span_cut h c after
  have hsign : Lexeme.sign c ≠ .sign ')' := fun hsame => hc (Lexeme.sign.inj hsame)
  rw [← htake] at hlink
  rw [readSegments]
  split
  · rename_i hnil
    rw [hnil] at hdrop
    cases hdrop
  · rename_i hcons
    rw [hcons] at hdrop
    cases hdrop
    rw [if_neg hsign]
    split
    · rename_i hnone
      rw [hnone] at hlink
      cases hlink
    · rename_i hsome
      rw [hsome] at hlink
      cases hlink
      rfl

end Parsing

namespace Spelling

theorem cut_signPiece (a : Arithmetic) (rest : List Lexeme) :
    cut [signPiece a, .sign '='] rest = signPiece a :: .sign '=' :: rest := by
  cases a <;> rfl

theorem signPiece_ne_blank (a : Arithmetic) : signPiece a ≠ .blank := by
  cases a <;> exact nofun

theorem readOperator_signPiece (a : Arithmetic) (rest : List Lexeme) :
    Parsing.readOperator (signPiece a :: .sign '=' :: rest) = some (a, rest) := by
  cases a <;> rfl

/-- The link of an update with a default is read behind the opening sign. -/
theorem readLink_defaulted (words : List Lexeme) (opening closing between : Gap) {l : Lexeme}
    {default : Token} (hl : l.token? = some default) (a : Arithmetic) (rest : List Lexeme) :
    Parsing.readLink words (.sign '(' :: cut (padded opening l closing)
      (.sign ')' :: cut between.pieces (signPiece a :: .sign '=' :: rest)))
        = some (words, .update a (some default), rest) := by
  have hword : isWord l = true := by
    cases l with
    | bare | quoted | blank => rfl
    | sign => cases hl
  have hwords : ∀ x ∈ padded opening l closing, isWord x = true :=
    forall_mem_padded (P := fun x => isWord x = true) rfl opening closing hword
  obtain ⟨htake, hdrop⟩ := Lexeme.span_cut hwords ')'
    (cut between.pieces (signPiece a :: .sign '=' :: rest))
  rw [Parsing.readLink, if_neg (by decide), if_neg (by decide), if_pos rfl, htake, hdrop,
    word?_padded opening closing hl]
  dsimp only
  rw [if_pos rfl, dropBlank_cut between (signPiece_ne_blank a), readOperator_signPiece]
  rfl

section Links

variable {words : List Lexeme} (hwords : ∀ l ∈ words, Parsing.IsPart l)

include hwords

theorem readSegments_set (rest : List Lexeme) :
    Parsing.readSegments (cut words (.sign ':' :: rest))
      = (Parsing.readSegments rest).map fun (segments, last, rest) =>
        ((cut words [], .set) :: segments, last, rest) :=
  Parsing.readSegments_sign (fun l hl => (hwords l hl).1) (by decide) rfl

theorem readSegments_update (a : Arithmetic) (rest : List Lexeme) :
    Parsing.readSegments (cut words (cut [signPiece a, .sign '='] rest))
      = (Parsing.readSegments rest).map fun (segments, last, rest) =>
        ((cut words [], .update a none) :: segments, last, rest) := by
  have hword : ∀ l ∈ words, isWord l = true := fun l hl => (hwords l hl).1
  cases a with
  | add | multiply | divide => exact Parsing.readSegments_sign hword (by decide) rfl
  | subtract =>
    -- the hyphen runs together with the words, and is taken away from them
    have hhyphen : ∀ l ∈ words ++ [.bare "-"], isWord l = true :=
      List.forall_mem_append.mpr ⟨hword, List.forall_mem_singleton.mpr rfl⟩
    have htaken : Parsing.takeHyphen (cut words [.bare "-"]) = some (cut words []) :=
      Parsing.takeHyphen_cut fun l hl => (hwords l hl).2
    have hlink : Parsing.readLink (cut (words ++ [.bare "-"]) []) (.sign '=' :: rest)
        = some (cut words [], .update .subtract none, rest) := by
      rw [Lexeme.cut_append]
      show (Parsing.takeHyphen (cut words [.bare "-"])).map _ = _
      rw [htaken]
      rfl
    have hsegments := Parsing.readSegments_sign hhyphen (by decide) hlink
    rw [Lexeme.cut_append] at hsegments
    exact hsegments

theorem readSegments_defaulted (opening closing between : Gap) {l : Lexeme} {default : Token}
    (hl : l.token? = some default) (a : Arithmetic) (rest : List Lexeme) :
    Parsing.readSegments (cut words (.sign '(' :: cut (padded opening l closing)
      (.sign ')' :: cut between.pieces (cut [signPiece a, .sign '='] rest))))
      = (Parsing.readSegments rest).map fun (segments, last, rest) =>
        ((cut words [], .update a (some default)) :: segments, last, rest) := by
  have hlink := readLink_defaulted (cut words []) opening closing between hl a rest
  rw [cut_signPiece]
  exact Parsing.readSegments_sign (fun l hl => (hwords l hl).1) (by decide) hlink

end Links

end Spelling

end GraphFeed
