import GraphFeed.Instruction.Parsing
import GraphFeed.Proofs.Grammar

/-!
# What is read has a derivation

Lexemes spell a text if the text is what they are cut from, one after the other (`Lexeme.Spells`).
They need not be cut as they would be by themselves: a bare run may stand beside another one, as it
does after a comma or a hyphen has been taken out of it. So each reader comes with one lemma, which
says that what it reads has a derivation and that the rest spells what is left of the text:

* `Grammar.property_iff`: every property is a name, a link and a value, with gaps between them;
* `Parsing.takeHyphen_spells`, `Parsing.commas_spells`: the two places where a run is taken apart;
* `Parsing.readSegments_spells`, `Parsing.readAssignments_derives`: a list of properties;
* `Parsing.readEntity_derives`, `Parser.derives_of_ofLexemes`: entities and instructions.
-/

namespace GraphFeed

open Spelling (Gap Space)

namespace Grammar

/-! ## 1. Links -/

/-- What stands between the name and the value of a property, gaps at both ends aside. -/
inductive Link : Text → Parsing.Link → Prop
  | set : Link ":" .set
  | update (operation : Arithmetic) : Link [operation.sign, '='] (.update operation none)
  | defaulted {d : Text} {default : Token} (opening : Gap) (hdefault : Word d default)
      (closing between : Gap) (operation : Arithmetic) :
      Link (.concat ["(", opening.text, d, closing.text, ")", between.text, [operation.sign, '=']])
        (.update operation (some default))

/-- **A property is a name, a link and a value.** -/
theorem property_iff {t : Text} {p : ParseTree.Property} :
    Property t p ↔ ∃ n name l link v value, ∃ before after : Gap, Word n name ∧ Link l link ∧
      Word v value ∧ t = .concat [n, before.text, l, after.text, v] ∧
        p = link.property name value := by
  constructor
  · intro h
    cases h with
    | set hname before after hvalue =>
      exact ⟨_, _, _, _, _, _, before, after, hname, .set, hvalue, rfl, rfl⟩
    | arithmetic hname before operation after hoperand =>
      exact ⟨_, _, _, _, _, _, before, after, hname, .update operation, hoperand, rfl, rfl⟩
    | defaulted hname before opening hdefault closing between operation after hoperand =>
      refine ⟨_, _, _, _, _, _, before, after, hname,
        .defaulted opening hdefault closing between operation, hoperand, ?_, rfl⟩
      simp [Text.concat]
  · rintro ⟨n, name, l, link, v, value, before, after, hname, hlink, hvalue, rfl, rfl⟩
    cases hlink with
    | set => exact .set hname before after hvalue
    | update operation => exact .arithmetic hname before operation after hvalue
    | defaulted opening hdefault closing between operation =>
      have h := Property.defaulted hname before opening hdefault closing between operation after
        hvalue
      simpa [Text.concat, Parsing.Link.property] using h

end Grammar

namespace Lexeme

/-! ## 2. Texts of lexemes -/

/-- The text is one that the lexeme may be cut from. -/
inductive Spelled : Lexeme → Text → Prop
  | bare {run : Text} (hne : run ≠ []) (hrun : ∀ c ∈ run, isBare c = true) :
      Spelled (.bare run) run
  | quoted {mark : CodePoint} {inside : Text} (hmark : isMark mark = true)
      (h : Quotation.Inside mark inside) :
      Spelled (.quoted (mark :: (inside ++ [mark]))) (mark :: (inside ++ [mark]))
  | blank (space : Space) : Spelled .blank space.text
  | sign (c : CodePoint) : Spelled (.sign c) [c]

/-- The text is one that the lexemes may be cut from. -/
inductive Spells : List Lexeme → Text → Prop
  | nil : Spells [] []
  | cons {l : Lexeme} {ls : List Lexeme} {t u : Text} (h : Spelled l t) (hrest : Spells ls u) :
      Spells (l :: ls) (t ++ u)

variable {l : Lexeme} {ls ls' : List Lexeme} {t u : Text} {token : Token}

theorem spells_cons_iff :
    Spells (l :: ls) t ↔ ∃ a b, t = a ++ b ∧ Spelled l a ∧ Spells ls b := by
  constructor
  · rintro ⟨⟩
    exact ⟨_, _, rfl, ‹_›, ‹_›⟩
  · rintro ⟨a, b, rfl, h, hrest⟩
    exact .cons h hrest

theorem spells_sign_iff {c : CodePoint} :
    Spells (.sign c :: ls) t ↔ ∃ u, t = c :: u ∧ Spells ls u := by
  rw [spells_cons_iff]
  constructor
  · rintro ⟨_, u, rfl, ⟨⟩, hrest⟩
    exact ⟨u, rfl, hrest⟩
  · rintro ⟨u, rfl, hrest⟩
    exact ⟨[c], u, rfl, .sign c, hrest⟩

theorem spells_blank_iff :
    Spells (.blank :: ls) t ↔ ∃ (space : Space) (u : Text), t = space.text ++ u ∧ Spells ls u := by
  rw [spells_cons_iff]
  constructor
  · rintro ⟨a, u, rfl, h, hrest⟩
    cases h with
    | blank space => exact ⟨space, u, rfl, hrest⟩
  · rintro ⟨space, u, rfl, hrest⟩
    exact ⟨space.text, u, rfl, .blank space, hrest⟩

theorem Spelled.spells (h : Spelled l t) : Spells [l] t := by
  have hspells := Spells.cons h .nil
  rwa [List.append_nil] at hspells

theorem Spells.append (h : Spells ls t) (h' : Spells ls' u) : Spells (ls ++ ls') (t ++ u) := by
  induction h with
  | nil => exact h'
  | cons hl _ ih =>
    rw [List.append_assoc]
    exact .cons hl ih

/-- **Lexemes one after the other spell texts one after the other.** -/
theorem Spells.split : ∀ {ls : List Lexeme} {t : Text}, Spells (ls ++ ls') t →
    ∃ a b, t = a ++ b ∧ Spells ls a ∧ Spells ls' b
  | [], t, h => ⟨[], t, rfl, .nil, h⟩
  | l :: ls, t, h => by
    obtain ⟨a, b, rfl, hl, hrest⟩ := spells_cons_iff.mp h
    obtain ⟨b, b', rfl, hls, hls'⟩ := hrest.split
    exact ⟨a ++ b, b', (List.append_assoc _ _ _).symm, .cons hl hls, hls'⟩

/-- The first lexeme of a text is spelled by its beginning. -/
theorem spelled_of_first? {rest : Text} (h : first? t = some (l, rest)) :
    ∃ a, t = a ++ rest ∧ Spelled l a := by
  cases t with
  | nil => cases h
  | cons c t =>
    have hsplit : ∀ p : CodePoint → Bool, c :: t = (c :: t.takeWhile p) ++ t.dropWhile p := by
      intro p
      rw [List.cons_append, List.takeWhile_append_dropWhile]
    have hrun : ∀ {p : CodePoint → Bool}, p c = true → ∀ d ∈ c :: t.takeWhile p, p d = true :=
      fun hc => List.forall_mem_cons.mpr ⟨hc, fun _ hd => List.all_eq_true.mp List.all_takeWhile _ hd⟩
    rw [first?] at h
    split at h
    · rename_i hc
      cases h
      exact ⟨_, hsplit isBare, .bare (List.cons_ne_nil _ _) (hrun hc)⟩
    · split at h
      · rename_i hc
        cases h
        exact ⟨_, hsplit isBlank, .blank ⟨⟨_, hrun hc⟩, List.cons_ne_nil _ _⟩⟩
      · split at h
        · rename_i hc
          obtain ⟨⟨inside, after⟩, hclosing, heq⟩ := Option.map_eq_some_iff.mp h
          cases heq
          refine ⟨c :: (inside ++ [c]), ?_, .quoted hc (Quotation.inside_of_closing? hclosing)⟩
          rw [closing?_eq hclosing, List.cons_append, List.append_assoc]
          rfl
        · split at h
          · cases h
            exact ⟨[c], rfl, .sign c⟩
          · cases h

/-- **The lexemes of a text spell it.** -/
theorem spells_of_ofText? {t : Text} {ls : List Lexeme} (h : ofText? t = some ls) :
    Spells ls t := by
  fun_induction ofText? t generalizing ls with
  | case1 t ht =>
    cases h
    rw [List.isEmpty_iff.mp ht]
    exact .nil
  | case2 => cases h
  | case3 t _ l rest hfirst _ ih =>
    obtain ⟨ls, hrest, rfl⟩ := Option.map_eq_some_iff.mp h
    obtain ⟨a, rfl, hl⟩ := spelled_of_first? hfirst
    exact .cons hl (ih hrest)

/-! ## 3. Words -/

theorem Spelled.word (h : Spelled l t) (hl : l.token? = some token) : Grammar.Word t token := by
  cases h with
  | bare hne hrun =>
    cases hl
    exact .bare hne hrun
  | quoted hmark h =>
    cases hl
    exact .quoted hmark h
  | blank => cases hl
  | sign => cases hl

theorem Spells.dropBlank (h : Spells ls t) :
    ∃ (g : Gap) (u : Text), t = g.text ++ u ∧ Spells (dropBlank ls) u := by
  unfold Lexeme.dropBlank
  split
  · obtain ⟨space, u, rfl, hrest⟩ := spells_blank_iff.mp h
    exact ⟨space.toGap, u, rfl, hrest⟩
  · exact ⟨.none, t, rfl, h⟩

/-- **What is read as a word is a word between gaps.** -/
theorem Spells.word (h : Spells ls t) (hword : word? ls = some token) :
    ∃ (before : Gap) (w : Text) (after : Gap), t = before.text ++ (w ++ after.text) ∧
      Grammar.Word w token := by
  obtain ⟨before, u, rfl, hrest⟩ := h.dropBlank
  unfold word? at hword
  split at hword
  · rename_i l hl
    rw [hl] at hrest
    obtain ⟨w, _, rfl, hw, ⟨⟩⟩ := spells_cons_iff.mp hrest
    exact ⟨before, w, .none, rfl, hw.word hword⟩
  · rename_i l hl
    rw [hl] at hrest
    obtain ⟨w, _, rfl, hw, hblank⟩ := spells_cons_iff.mp hrest
    obtain ⟨after, _, rfl, ⟨⟩⟩ := spells_blank_iff.mp hblank
    exact ⟨before, w, after.toGap, by rw [List.append_nil], hw.word hword⟩
  · cases hword

end Lexeme

namespace Parsing

open Lexeme
open ParseTree (Property Key)

variable {ls words rest : List Lexeme} {t u : Text}

/-! ## 4. Links of lexemes -/

theorem bareRun_spells (h : ∀ c ∈ t, isBare c = true) : Spells (bareRun t) t := by
  cases t with
  | nil => exact .nil
  | cons c t => exact Spelled.spells (.bare (List.cons_ne_nil _ _) h)

/-- **A hyphen that is taken away stands at the end of the text.** -/
theorem takeHyphen_spells {words' : List Lexeme} (h : takeHyphen words = some words')
    (hwords : Spells words t) : ∃ u, t = u ++ [('-' : CodePoint)] ∧ Spells words' u := by
  unfold takeHyphen at h
  split at h
  · rename_i run hlast
    obtain ⟨front, rfl⟩ := List.getLast?_eq_some_iff.mp hlast
    split at h
    · rename_i hhyphen
      obtain ⟨run, rfl⟩ := List.getLast?_eq_some_iff.mp hhyphen
      rw [List.dropLast_concat, List.dropLast_concat] at h
      obtain ⟨a, b, rfl, hfront, hb⟩ := hwords.split
      obtain ⟨_, _, rfl, ⟨_, hrun⟩, ⟨⟩⟩ := spells_cons_iff.mp hb
      have hbare : ∀ c ∈ run, isBare c = true := fun c hc => hrun c (List.mem_append_left _ hc)
      refine ⟨a ++ run, by simp, ?_⟩
      cases run with
      | nil =>
        cases h
        rwa [List.append_nil]
      | cons c run =>
        rw [if_neg (by simp)] at h
        cases h
        exact hfront.append (bareRun_spells hbare)
    · cases h
  · cases h

theorem ofSign?_eq {c : CodePoint} {a : Arithmetic} (h : Arithmetic.ofSign? c = some a) :
    c = a.sign := by
  have hfound := List.find?_some h
  exact (of_decide_eq_true hfound).symm

/-- An operator is a sign and an equals sign. -/
theorem readOperator_spells {a : Arithmetic} (h : readOperator ls = some (a, rest))
    (hls : Spells ls t) : ∃ u, t = [a.sign, '='] ++ u ∧ Spells rest u := by
  unfold readOperator at h
  split at h
  · split at h
    · rename_i he
      obtain ⟨b, hb, heq⟩ := Option.map_eq_some_iff.mp h
      cases heq
      obtain ⟨_, rfl, hbehind⟩ := spells_sign_iff.mp hls
      obtain ⟨u, rfl, hrest⟩ := spells_sign_iff.mp hbehind
      refine ⟨u, ?_, hrest⟩
      rw [ofSign?_eq hb, he]
      rfl
    · cases h
  · split at h
    · rename_i hrun
      obtain ⟨rfl, rfl⟩ := hrun
      cases h
      obtain ⟨_, _, rfl, ⟨⟩, hbehind⟩ := spells_cons_iff.mp hls
      obtain ⟨u, rfl, hrest⟩ := spells_sign_iff.mp hbehind
      exact ⟨u, rfl, hrest⟩
    · cases h
  · cases h

/-- **A link that is read has a derivation.** A hyphen may have been taken away from the words before
    it. -/
theorem readLink_spells {words' rest' : List Lexeme} {link : Link}
    (h : readLink words rest = some (words', link, rest')) (hwords : Spells words t)
    (hrest : Spells rest u) :
    ∃ a l b, t ++ u = a ++ (l ++ b) ∧ Spells words' a ∧ Grammar.Link l link ∧ Spells rest' b := by
  unfold readLink at h
  split at h
  · rename_i c after
    split at h
    · rename_i hc
      cases h
      obtain ⟨b, rfl, hb⟩ := spells_sign_iff.mp hrest
      rw [hc]
      exact ⟨t, _, b, rfl, hwords, .set, hb⟩
    · split at h
      · rename_i hc
        obtain ⟨words', hhyphen, heq⟩ := Option.map_eq_some_iff.mp h
        cases heq
        obtain ⟨a, rfl, ha⟩ := takeHyphen_spells hhyphen hwords
        obtain ⟨b, rfl, hb⟩ := spells_sign_iff.mp hrest
        rw [hc]
        exact ⟨a, _, b, by simp [Arithmetic.sign], ha, .update .subtract, hb⟩
      · split at h
        · rename_i hc
          split at h
          · rename_i default p behind hdefault hbehind
            split at h
            · rename_i hp
              obtain ⟨⟨operation, rest⟩, hoperator, heq⟩ := Option.map_eq_some_iff.mp h
              cases heq
              obtain ⟨inside, rfl, hinside⟩ := spells_sign_iff.mp hrest
              rw [← List.takeWhile_append_dropWhile (p := isWord) (l := after), hbehind] at hinside
              obtain ⟨d, _, rfl, hd, hclosing⟩ := hinside.split
              obtain ⟨_, rfl, hafter⟩ := spells_sign_iff.mp hclosing
              obtain ⟨opening, w, closing, rfl, hw⟩ := hd.word hdefault
              obtain ⟨between, _, rfl, hsign⟩ := hafter.dropBlank
              obtain ⟨b, rfl, hb⟩ := readOperator_spells hoperator hsign
              refine ⟨t, _, b, ?_, hwords, .defaulted opening hw closing between operation, hb⟩
              rw [hc, hp]
              simp only [Text.concat, List.flatten_cons, List.flatten_nil, List.append_assoc,
                List.cons_append, List.append_nil]
              rfl
            · cases h
          · cases h
        · obtain ⟨⟨operation, rest⟩, hoperator, heq⟩ := Option.map_eq_some_iff.mp h
          cases heq
          obtain ⟨b, rfl, hb⟩ := readOperator_spells hoperator hrest
          exact ⟨t, _, b, rfl, hwords, .update operation, hb⟩
  · cases h

/-! ## 5. Properties -/

/-- **A comma that is taken out of words stands in their text.** -/
theorem commas_spells : ∀ {words : List Lexeme} {t : Text} {before after : List Lexeme},
    (before, after) ∈ commas words → Spells words t →
      ∃ a b, t = a ++ (',' : CodePoint) :: b ∧ Spells before a ∧ Spells after b
  | [], _, _, _, h, _ => absurd h List.not_mem_nil
  | l :: words, t, before, after, h, hwords => by
    obtain ⟨u, v, rfl, hl, hrest⟩ := spells_cons_iff.mp hwords
    have hlater : ∀ {before' : List Lexeme}, (before', after) ∈ commas words →
        before = l :: before' →
          ∃ a b, u ++ v = a ++ (',' : CodePoint) :: b ∧ Spells before a ∧ Spells after b := by
      rintro before' hmem rfl
      obtain ⟨a, b, rfl, ha, hb⟩ := commas_spells hmem hrest
      exact ⟨u ++ a, b, (List.append_assoc _ _ _).symm, .cons hl ha, hb⟩
    cases l with
    | bare run =>
      rcases mem_commas_bare.mp h with ⟨front, back, rfl, rfl, rfl⟩ | ⟨before', hmem, hbefore⟩
      · -- the comma is one of the run
        obtain ⟨_, hrun⟩ := hl
        obtain ⟨hfront, hback⟩ := List.forall_mem_append.mp hrun
        refine ⟨front, back ++ v, by simp, bareRun_spells hfront, ?_⟩
        exact (bareRun_spells (List.forall_mem_cons.mp hback).2).append hrest
      · exact hlater hmem hbefore
    | quoted | blank | sign =>
      obtain ⟨before', hmem, hbefore⟩ := (mem_commas_cons rfl).mp h
      exact hlater hmem hbefore

/-- Words that are separated are a value, a comma and a name, with gaps around each. -/
theorem separate?_spells {last : Bool} {value name : Token}
    (h : separate? last words = some (value, name)) (hwords : Spells words t) :
    ∃ (after : Gap) (v : Text) (before after' : Gap) (n : Text) (before' : Gap),
      t = after.text ++ (v ++ (before.text ++ (',' : CodePoint) ::
        (after'.text ++ (n ++ before'.text)))) ∧
      Grammar.Word v value ∧ Grammar.Word n name := by
  obtain ⟨before, after, hcomma, hvalue, hname⟩ :=
    mem_separations_iff.mp (mem_separations_of_separate? h)
  obtain ⟨a, b, rfl, ha, hb⟩ := commas_spells hcomma hwords
  obtain ⟨after, v, before, rfl, hv⟩ := ha.word hvalue
  obtain ⟨after', n, before', rfl, hn⟩ := hb.word hname
  exact ⟨after, v, before, after', n, before', by simp, hv, hn⟩

/-- The text of segments: words and links by turns, the last words and the closing sign. -/
inductive Segments : List (List Lexeme × Link) → List Lexeme → Text → Prop
  | last {words : List Lexeme} {t : Text} (h : Spells words t) : Segments [] words (t ++ [(')' : CodePoint)])
  | more {words last : List Lexeme} {link : Link} {segments : List (List Lexeme × Link)}
      {a l t : Text} (hwords : Spells words a) (hlink : Grammar.Link l link)
      (hmore : Segments segments last t) : Segments ((words, link) :: segments) last (a ++ (l ++ t))

/-- **Segments that are read are those of a text.** -/
theorem readSegments_spells {segments : List (List Lexeme × Link)} {last : List Lexeme}
    (h : readSegments ls = some (segments, last, rest)) (hls : Spells ls t) :
    ∃ a b, t = a ++ b ∧ Segments segments last a ∧ Spells rest b := by
  fun_induction readSegments ls generalizing segments last rest t with
  | case1 => cases h
  | case2 ls after hdrop =>
    cases h
    rw [← List.takeWhile_append_dropWhile (p := isWord) (l := ls), hdrop] at hls
    obtain ⟨a, _, rfl, ha, hbehind⟩ := hls.split
    obtain ⟨b, rfl, hb⟩ := spells_sign_iff.mp hbehind
    exact ⟨a ++ [(')' : CodePoint)], b, by simp, .last ha, hb⟩
  | case3 => cases h
  | case4 ls l after hdrop _ words link rest' hlink _ ih =>
    obtain ⟨⟨segments, last, rest⟩, hrest, heq⟩ := Option.map_eq_some_iff.mp h
    cases heq
    rw [← List.takeWhile_append_dropWhile (p := isWord) (l := ls), hdrop] at hls
    obtain ⟨a, u, rfl, ha, hbehind⟩ := hls.split
    obtain ⟨a, l, b, hsplit, ha, hl, hb⟩ := readLink_spells hlink ha hbehind
    obtain ⟨b, b', rfl, hsegments, hb'⟩ := ih hrest hb
    exact ⟨a ++ (l ++ b), b', by simp [hsplit], .more ha hl hsegments, hb'⟩

/-- **Properties that are read have a derivation.** -/
theorem readAssignments_derives {last : List Lexeme} : ∀ {segments : List (List Lexeme × Link)}
    {flag : Bool} {name : Token} {link : Link} {ps : List Property} {t n l : Text},
    readAssignments flag name link segments last = some ps → Segments segments last t →
      Grammar.Word n name → Grammar.Link l link → ∀ before : Gap,
        ∃ (u : Text) (closing : Gap), n ++ (before.text ++ (l ++ t)) = u ++ (closing.text ++ [(')' : CodePoint)]) ∧
          Grammar.PropertyList u ps
  | [], _, _, _, ps, _, n, l, h, hsegments, hn, hl, before => by
    obtain ⟨hwords⟩ := hsegments
    obtain ⟨value, hvalue, rfl⟩ := Option.map_eq_some_iff.mp h
    obtain ⟨after, v, closing, rfl, hv⟩ := hwords.word hvalue
    refine ⟨_, closing, ?_, .one (Grammar.property_iff.mpr
      ⟨_, _, _, _, _, _, before, after, hn, hl, hv, rfl, rfl⟩)⟩
    simp [Text.concat]
  | (between, link') :: more, _, _, _, ps, _, n, l, h, hsegments, hn, hl, before => by
    rw [readAssignments] at h
    split at h
    · cases h
    · rename_i value name' hseparate
      obtain ⟨ps, hmore, rfl⟩ := Option.map_eq_some_iff.mp h
      cases hsegments with
      | more hwords hlink hsegments =>
        obtain ⟨after, v, before', after', n', before'', rfl, hv, hn'⟩ :=
          separate?_spells hseparate hwords
        obtain ⟨u, closing, hu, hlist⟩ :=
          readAssignments_derives hmore hsegments hn' hlink before''
        refine ⟨_, closing, ?_, .more (Grammar.property_iff.mpr
          ⟨_, _, _, _, _, _, before, after, hn, hl, hv, rfl, rfl⟩) before' after' hlist⟩
        simp only [Text.concat, List.flatten_cons, List.flatten_nil, List.append_assoc,
          List.cons_append, List.append_nil, hu]
        rfl

/-- A list of properties in parentheses, the opening one of which is gone, has a derivation. -/
theorem readProperties_derives {ps : List Property}
    (h : readProperties ls = some (ps, rest)) (hls : Spells ls t) :
    ∃ a b, t = a ++ b ∧ Grammar.Properties (('(' : CodePoint) :: a) ps ∧ Spells rest b := by
  unfold readProperties at h
  split at h
  · rename_i words link more lastWords rest' hread
    split at h
    · rename_i name hname
      obtain ⟨ps, hassignments, heq⟩ := Option.map_eq_some_iff.mp h
      cases heq
      obtain ⟨_, b, rfl, hsegments, hb⟩ := readSegments_spells hread hls
      cases hsegments with
      | more hwords hlink hsegments =>
        obtain ⟨opening, n, before, rfl, hn⟩ := hwords.word hname
        obtain ⟨u, closing, hu, hlist⟩ :=
          readAssignments_derives hassignments hsegments hn hlink before
        have hproperties := Grammar.Properties.list opening hlist closing
        refine ⟨opening.text ++ (u ++ (closing.text ++ [(')' : CodePoint)])), b, ?_, ?_, hb⟩
        · rw [← hu]
          simp
        · have htext : Text.concat ["(", opening.text, u, closing.text, ")"]
              = ('(' : CodePoint) :: (opening.text ++ (u ++ (closing.text ++ [(')' : CodePoint)]))) := by
            simp only [Text.concat, List.flatten_cons, List.flatten_nil, List.append_nil]
            rfl
          rwa [htext] at hproperties
    · cases h
  · cases h

/-! ## 6. Entities and instructions -/

theorem readToken_derives {token : Token} (h : readToken ls = some (token, rest)) (hls : Spells ls t) :
    ∃ w u, t = w ++ u ∧ Grammar.Word w token ∧ Spells rest u := by
  cases ls with
  | nil => cases h
  | cons l ls =>
    obtain ⟨token, hl, heq⟩ := Option.map_eq_some_iff.mp h
    cases heq
    obtain ⟨w, u, rfl, hw, hrest⟩ := spells_cons_iff.mp hls
    exact ⟨w, u, rfl, hw.word hl, hrest⟩

theorem readKey_derives {key : Key} (h : readKey ls = some (key, rest))
    (hls : Spells ls t) : ∃ (after : Gap) (k u : Text), t = after.text ++ (k ++ u) ∧
      Grammar.Key k key ∧ Spells rest u := by
  obtain ⟨after, u, rfl, hdropped⟩ := hls.dropBlank
  unfold readKey at h
  split at h
  · cases h
  · rename_i first rest' hfirst
    obtain ⟨w, u, rfl, hw, hrest⟩ := readToken_derives hfirst hdropped
    split at h
    · rename_i c behind
      split at h
      · rename_i hc
        obtain ⟨⟨id, rest⟩, hid, heq⟩ := Option.map_eq_some_iff.mp h
        cases heq
        obtain ⟨_, rfl, hbehind⟩ := spells_sign_iff.mp hrest
        obtain ⟨v, u, rfl, hv, hrest⟩ := readToken_derives hid hbehind
        refine ⟨after, _, u, ?_, .named hw hv, hrest⟩
        rw [hc]
        simp only [Text.concat, List.flatten_cons, List.flatten_nil, List.append_nil,
          List.append_assoc]
        rfl
      · cases h
        exact ⟨after, w, u, rfl, .plain hw, hrest⟩
    · cases h
      exact ⟨after, w, u, rfl, .plain hw, hrest⟩

theorem readKey?_derives {key : Option Key} (h : readKey? ls = some (key, rest))
    (hls : Spells ls t) : ∃ k u, t = k ++ u ∧ Grammar.KeyPart k key ∧ Spells rest u := by
  unfold readKey? at h
  split at h
  · rename_i c rest' hdrop
    split at h
    · rename_i hc
      obtain ⟨⟨key, rest⟩, hkey, heq⟩ := Option.map_eq_some_iff.mp h
      cases heq
      obtain ⟨before, u, rfl, hdropped⟩ := hls.dropBlank
      rw [hdrop] at hdropped
      obtain ⟨_, rfl, hrest⟩ := spells_sign_iff.mp hdropped
      obtain ⟨after, k, u, rfl, hk, hrest⟩ := readKey_derives hkey hrest
      refine ⟨_, u, ?_, .given before after hk, hrest⟩
      rw [hc]
      simp only [Text.concat, List.flatten_cons, List.flatten_nil, List.append_nil,
        List.append_assoc]
      rfl
    · cases h
      exact ⟨[], t, rfl, .absent, hls⟩
  · cases h
    exact ⟨[], t, rfl, .absent, hls⟩

theorem readProperties?_derives {ps : List Property}
    (h : readProperties? ls = some (ps, rest)) (hls : Spells ls t) :
    ∃ p u, t = p ++ u ∧ Grammar.PropertiesPart p ps ∧ Spells rest u := by
  unfold readProperties? at h
  split at h
  · rename_i c rest' hdrop
    split at h
    · rename_i hc
      obtain ⟨before, u, rfl, hdropped⟩ := hls.dropBlank
      rw [hdrop] at hdropped
      obtain ⟨_, rfl, hrest⟩ := spells_sign_iff.mp hdropped
      obtain ⟨p, u, rfl, hp, hrest⟩ := readProperties_derives h hrest
      refine ⟨_, u, ?_, .given before hp, hrest⟩
      rw [hc]
      simp
    · cases h
      exact ⟨[], t, rfl, .absent, hls⟩
  · cases h
    exact ⟨[], t, rfl, .absent, hls⟩

/-- **An entity that is read has a derivation.** -/
theorem readEntity_derives {e : ParseTree.Entity} (h : readEntity ls = some (e, rest)) (hls : Spells ls t) :
    ∃ a u, t = a ++ u ∧ Grammar.Entity a e ∧ Spells rest u := by
  unfold readEntity at h
  split at h
  · cases h
  · rename_i name rest₁ hname
    split at h
    · cases h
    · rename_i key rest₂ hkey
      obtain ⟨⟨ps, rest⟩, hlist, heq⟩ := Option.map_eq_some_iff.mp h
      cases heq
      obtain ⟨n, _, rfl, hn, hls⟩ := readToken_derives hname hls
      obtain ⟨k, _, rfl, hk, hls⟩ := readKey?_derives hkey hls
      obtain ⟨p, u, rfl, hp, hls⟩ := readProperties?_derives hlist hls
      exact ⟨_, u, by simp [Text.concat], .parts hn hk hp, hls⟩

theorem readNext_derives {e : ParseTree.Entity} (h : readNext ls = some (e, rest)) (hls : Spells ls t) :
    ∃ (space : Space) (a u : Text), t = space.text ++ (a ++ u) ∧ Grammar.Entity a e ∧
      Spells rest u := by
  unfold readNext at h
  split at h
  · obtain ⟨space, _, rfl, hrest⟩ := spells_blank_iff.mp hls
    obtain ⟨a, u, rfl, ha, hu⟩ := readEntity_derives h hrest
    exact ⟨space, a, u, rfl, ha, hu⟩
  · cases h

end Parsing

/-- **What is read as an instruction is the tree of a derivation.** -/
theorem Parser.derives_of_ofLexemes {t : Text} {tree : ParseTree} (h : Parser.ofLexemes t = some tree) :
    Grammar.Instruction t tree := by
  obtain ⟨ls, hls, hread⟩ := Option.bind_eq_some_iff.mp h
  have hspells := Lexeme.spells_of_ofText? hls
  unfold Parsing.readInstruction at hread
  split at hread
  · cases hread
  · rename_i left hleft
    cases hread
    obtain ⟨a, _, rfl, ha, ⟨⟩⟩ := Parsing.readEntity_derives hleft hspells
    rw [List.append_nil]
    exact .insert ha
  · rename_i left rest _ hleft
    obtain ⟨a, _, rfl, ha, hrest⟩ := Parsing.readEntity_derives hleft hspells
    split at hread
    · cases hread
    · rename_i relationship rest' hrelationship
      obtain ⟨before, m, _, rfl, hm, hrest⟩ := Parsing.readNext_derives hrelationship hrest
      split at hread
      · rename_i right hright
        cases hread
        obtain ⟨after, r, _, rfl, hr, ⟨⟩⟩ := Parsing.readNext_derives hright hrest
        have hconnect := Grammar.Instruction.connect ha before hm after hr
        simpa [Text.concat] using hconnect
      · cases hread

end GraphFeed
