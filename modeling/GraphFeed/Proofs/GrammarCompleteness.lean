import GraphFeed.Proofs.EntityReading
import GraphFeed.Proofs.GrammarSoundness

/-!
# What has a derivation is read

A text with a derivation has pieces, and its readers succeed on them, whatever follows. It need not be
this derivation that they find: of the commas between a value and the next name any may be the one
that separates. But the one of the derivation is among them (`Parsing.mem_commas_cut`), so that there
is one to choose, and whether the rest of the list can be read does not depend on the choice
(`Parsing.ReadsList`, `Grammar.PropertyList.reads`). So `Parser.ofLexemes` accepts the grammar.

Nothing else is left to choose. Where the names and values of properties have no bare comma, a text has
one derivation (`Grammar.Instruction.unique`), which every parser finds that accepts the grammar.

`Instruction.read_grammar` puts this together for reading.
-/

namespace GraphFeed

open Lexeme (push cut Cuts cuts_sign isWord word?)
open Spelling (Gap Space padded comma signPiece Behind Ended ListRead KeyRead)
open Parsing (IsPart)

/-! ## 1. Trees without bare commas -/

namespace ParseTree

/-- Neither the name nor the value has a comma that could separate two properties. -/
def Property.Plain : Property → Prop
  | .set name value | .arithmetic name _ value | .defaulted name _ _ value => name.Plain ∧ value.Plain

/-- No property of the entity has a comma that could separate it from another. -/
def Entity.Plain (e : Entity) : Prop := ∀ p ∈ e.properties, p.Plain

/-- No entity of the instruction has such a comma. -/
def Plain : ParseTree → Prop
  | .insert left => left.Plain
  | .connect left relationship right => left.Plain ∧ relationship.Plain ∧ right.Plain

end ParseTree

namespace Parsing

variable {name value : Token} {link link' : Link} {last between : List Lexeme}
  {segments : List (List Lexeme × Link)} {ps : List ParseTree.Property}

theorem Link.plain_property : (link.property name value).Plain ↔ name.Plain ∧ value.Plain := by
  cases link with
  | set => exact Iff.rfl
  | update operation default =>
    cases default with
    | none | some => exact Iff.rfl

/-! ## 2. Lists of properties -/

theorem exists_of_readAssignments {flag : Bool} (h : readAssignments flag name link segments last = some ps) :
    ∃ value more, ps = link.property name value :: more := by
  cases segments with
  | nil =>
    obtain ⟨value, _, rfl⟩ := Option.map_eq_some_iff.mp h
    exact ⟨value, [], rfl⟩
  | cons segment segments =>
    rw [readAssignments] at h
    split at h
    · cases h
    · rename_i value next _
      obtain ⟨more, _, rfl⟩ := Option.map_eq_some_iff.mp h
      exact ⟨value, more, rfl⟩

/-- Behind a name and a link segments are read, whatever the commas that are chosen. They are read as
    these properties if these or what is read have no other commas to choose. -/
structure ReadsList (name : Token) (link : Link) (segments : List (List Lexeme × Link))
    (last : List Lexeme) (ps : List ParseTree.Property) : Prop where
  head : ∃ value more, ps = link.property name value :: more
  reads : ∀ flag name' link', ∃ read, readAssignments flag name' link' segments last = some read
  unique : ∀ flag read, readAssignments flag name link segments last = some read →
    (∀ p ∈ ps, p.Plain) ∨ (∀ p ∈ read, p.Plain) → read = ps

theorem ReadsList.one (h : word? last = some value) :
    ReadsList name link [] last [link.property name value] := by
  have hread : ∀ flag name link, readAssignments flag name link [] last
      = some [link.property name value] := by
    intro flag name link
    rw [readAssignments, h]
    rfl
  refine ⟨⟨value, [], rfl⟩, fun flag name link => ⟨_, hread flag name link⟩, fun flag read heq _ => ?_⟩
  rw [hread] at heq
  exact (Option.some.inj heq).symm

/-- **One property more is read**, if its value and the next name are among the ways to separate. -/
theorem ReadsList.more {next : Token} (hmem : (value, next) ∈ separations between)
    (h : ReadsList next link' segments last ps) :
    ReadsList name link ((between, link') :: segments) last (link.property name value :: ps) := by
  refine ⟨⟨value, ps, rfl⟩, fun flag name link => ?_, fun flag read hread hplain => ?_⟩
  · obtain ⟨⟨chosen, following⟩, hseparate⟩ := exists_separate? hmem flag
    obtain ⟨read, hread⟩ := h.reads false following link'
    rw [readAssignments, hseparate]
    dsimp only
    rw [hread]
    exact ⟨_, rfl⟩
  · rw [readAssignments] at hread
    split at hread
    · cases hread
    · rename_i chosen following hseparate
      have hchosen := mem_separations_of_separate? hseparate
      obtain ⟨read, hmore, rfl⟩ := Option.map_eq_some_iff.mp hread
      obtain ⟨v, more, rfl⟩ := exists_of_readAssignments hmore
      obtain ⟨v', more', rfl⟩ := h.head
      have hsame : (chosen, following) = (value, next) := by
        rcases hplain with hplain | hplain
        · obtain ⟨hfirst, hrest⟩ := List.forall_mem_cons.mp hplain
          have hnext := (List.forall_mem_cons.mp hrest).1
          exact eq_of_mem_separations hmem hchosen (Link.plain_property.mp hfirst).2
            (Link.plain_property.mp hnext).1
        · obtain ⟨hfirst, hrest⟩ := List.forall_mem_cons.mp hplain
          have hnext := (List.forall_mem_cons.mp hrest).1
          exact (eq_of_mem_separations hchosen hmem (Link.plain_property.mp hfirst).2
            (Link.plain_property.mp hnext).1).symm
      cases hsame
      have hrest := hplain.imp (fun hps => (List.forall_mem_cons.mp hps).2)
        fun hread => (List.forall_mem_cons.mp hread).2
      rw [h.unique false _ hmore hrest]

end Parsing

namespace Grammar

/-! ## 3. Words and links -/

/-- A word is a piece. -/
theorem Word.cuts {t : Text} {token : Token} (h : Word t token) :
    ∃ l, Cuts t [l] ∧ l.token? = some token ∧ IsPart l := by
  cases h with
  | bare hne hrun =>
    exact ⟨_, Lexeme.cuts_bare hne hrun, rfl, rfl, fun hnil => hne (Lexeme.bare.inj hnil)⟩
  | quoted hmark h =>
    exact ⟨_, Lexeme.cuts_quoted hmark (h.closing?_append hmark), rfl, rfl, nofun⟩

theorem cuts_padded {t : Text} {l : Lexeme} (h : Cuts t [l]) (before after : Gap) :
    Cuts (before.text ++ (t ++ after.text)) (padded before l after) := by
  have hcuts := before.cuts.append (h.append (after.cuts.append .nil))
  rwa [List.append_nil] at hcuts

theorem isPart_gap (g : Gap) : ∀ x ∈ g.pieces, IsPart x :=
  Spelling.forall_mem_gap ⟨rfl, nofun⟩ g

theorem isPart_padded (before after : Gap) {l : Lexeme} (hl : IsPart l) :
    ∀ x ∈ padded before l after, IsPart x :=
  Spelling.forall_mem_padded ⟨rfl, nofun⟩ before after hl

/-- Words with a word and blanks behind them. -/
theorem isPart_append_word {words : List Lexeme} (hwords : ∀ x ∈ words, IsPart x) {l : Lexeme}
    (hl : IsPart l) (after : Gap) : ∀ x ∈ words ++ l :: after.pieces, IsPart x :=
  List.forall_mem_append.mpr ⟨hwords, List.forall_mem_cons.mpr ⟨hl, isPart_gap after⟩⟩

/-- **A list of properties is cut behind a link.** -/
theorem Link.cuts {t : Text} {link : Parsing.Link} (h : Link t link) :
    ∃ pieces, Cuts t pieces ∧ ∀ words, (∀ l ∈ words, IsPart l) → ∀ rest,
      Parsing.readSegments (cut words (cut pieces rest))
        = (Parsing.readSegments rest).map fun (segments, last, rest) =>
          ((cut words [], link) :: segments, last, rest) := by
  have hequals : Cuts "=" [.sign '='] := cuts_sign (by decide)
  cases h with
  | set =>
    exact ⟨[.sign ':'], cuts_sign (by decide), fun words hwords =>
      Spelling.readSegments_set hwords⟩
  | update operation =>
    exact ⟨[signPiece operation, .sign '='], (Spelling.cuts_signPiece operation).append hequals,
      fun words hwords => Spelling.readSegments_update hwords operation⟩
  | defaulted opening hdefault closing between operation =>
    obtain ⟨l, hl, htoken, _⟩ := hdefault.cuts
    have hopening : Cuts "(" [.sign '('] := cuts_sign (by decide)
    have hclosing : Cuts ")" [.sign ')'] := cuts_sign (by decide)
    have hoperator := (Spelling.cuts_signPiece operation).append hequals
    refine ⟨[[.sign '('], padded opening l closing, [.sign ')'], between.pieces,
      [signPiece operation, .sign '=']].flatten, ?_, fun words hwords rest => ?_⟩
    · have hcuts := hopening.append ((cuts_padded hl opening closing).append
        (hclosing.append (between.cuts.append (hoperator.append .nil))))
      simp only [Text.concat, List.flatten_cons, List.flatten_nil, List.append_assoc] at hcuts ⊢
      exact hcuts
    · rw [Lexeme.cut_flatten]
      exact Spelling.readSegments_defaulted hwords opening closing between htoken operation rest

/-! ## 4. Properties -/

/-- A list of properties is cut behind the link of its first property. What stands before the link,
    from the name on, belongs to the words before; what stands behind it, to those that follow. -/
theorem Property.cuts {t : Text} {p : ParseTree.Property} (h : Property t p) :
    ∃ pieces l name link m value, ∃ before after : Gap, p = link.property name value ∧
      Cuts t pieces ∧ l.token? = some name ∧ IsPart l ∧ m.token? = some value ∧ IsPart m ∧
      ∀ words, (∀ x ∈ words, IsPart x) → ∀ rest,
        Parsing.readSegments (cut words (cut pieces rest))
          = (Parsing.readSegments (cut after.pieces (push m rest))).map fun (segments, last, rest) =>
            ((cut (words ++ l :: before.pieces) [], link) :: segments, last, rest) := by
  obtain ⟨n, name, _, link, v, value, before, after, hn, hlink, hv, rfl, rfl⟩ := property_iff.mp h
  obtain ⟨l, hl, hltoken, hlpart⟩ := hn.cuts
  obtain ⟨m, hm, hmtoken, hmpart⟩ := hv.cuts
  obtain ⟨pieces, hpieces, hsegments⟩ := hlink.cuts
  refine ⟨[[l], before.pieces, pieces, after.pieces, [m]].flatten, l, name, link, m, value, before,
    after, rfl, ?_, hltoken, hlpart, hmtoken, hmpart, fun words hwords rest => ?_⟩
  · exact hl.append (before.cuts.append (hpieces.append (after.cuts.append (hm.append .nil))))
  · have hshape : cut words (cut [[l], before.pieces, pieces, after.pieces, [m]].flatten rest)
        = cut (words ++ l :: before.pieces) (cut pieces (cut after.pieces (push m rest))) := by
      rw [Lexeme.cut_flatten, Lexeme.cut_append]
      rfl
    rw [hshape]
    exact hsegments _ (isPart_append_word hwords hlpart before) _

/-- **A list of properties is read**, behind words that may stand before its first name. -/
theorem PropertyList.reads {t : Text} {ps : List ParseTree.Property} (h : PropertyList t ps) :
    ∃ pieces l name, ∃ before : Gap, Cuts t pieces ∧ l.token? = some name ∧ IsPart l ∧
      ∀ words, (∀ x ∈ words, IsPart x) → ∀ (closing : Gap) (rest : List Lexeme),
        ∃ link segments last,
          Parsing.readSegments (cut words (cut pieces (cut closing.pieces (.sign ')' :: rest))))
            = some ((cut (words ++ l :: before.pieces) [], link) :: segments, last, rest) ∧
          Parsing.ReadsList name link segments last ps := by
  induction h with
  | one h =>
    obtain ⟨pieces, l, name, link, m, value, before, after, rfl, hpieces, hl, hlpart, hm, hmpart,
      hsegments⟩ := h.cuts
    refine ⟨pieces, l, name, before, hpieces, hl, hlpart, fun words hwords closing rest => ?_⟩
    have hvalue : ∀ x ∈ padded after m closing, isWord x = true := fun x hx =>
      (isPart_padded after closing hmpart x hx).1
    refine ⟨link, [], cut (padded after m closing) [], ?_, .one (Spelling.word?_padded after closing hm)⟩
    rw [hsegments words hwords, ← Spelling.cut_padded, Parsing.readSegments_closing hvalue]
    rfl
  | more h before' after' _ ih =>
    obtain ⟨pieces, l, name, link, m, value, before, after, rfl, hpieces, hl, hlpart, hm, hmpart,
      hsegments⟩ := h.cuts
    obtain ⟨pieces', l', name', before'', hpieces', hl', hlpart', hread⟩ := ih
    -- the value, the comma and the blanks behind it stand before the next name
    have hvalue := isPart_padded after before' hmpart
    have hname := isPart_padded after' before'' hlpart'
    have hbetween : ∀ x ∈ padded after m before' ++ comma :: after'.pieces, IsPart x :=
      isPart_append_word hvalue ⟨rfl, by decide⟩ after'
    refine ⟨[pieces, before'.pieces, [comma], after'.pieces, pieces'].flatten, l, name, before,
      hpieces.append (before'.cuts.append (Spelling.cuts_comma.append (after'.cuts.append
        (hpieces'.append .nil)))), hl, hlpart, fun words hwords closing rest => ?_⟩
    obtain ⟨link', segments, last, hmore, hlist⟩ := hread _ hbetween closing rest
    have hnext : (padded after m before' ++ comma :: after'.pieces) ++ l' :: before''.pieces
        = padded after m before' ++ comma :: padded after' l' before'' := by
      simp [padded]
    rw [hnext] at hmore
    have hseparate : (value, name') ∈ Parsing.separations
        (cut (padded after m before' ++ comma :: padded after' l' before'') []) :=
      Parsing.mem_separations_iff.mpr ⟨_, _, Parsing.mem_commas_cut hvalue hname,
        Spelling.word?_padded after before' hm, Spelling.word?_padded after' before'' hl'⟩
    refine ⟨link, (cut (padded after m before' ++ comma :: padded after' l' before'') [], link') ::
      segments, last, ?_, .more hseparate hlist⟩
    have hshape : cut after.pieces (push m (cut before'.pieces (cut [comma] (cut after'.pieces
          (cut pieces' (cut closing.pieces (.sign ')' :: rest)))))))
        = cut (padded after m before' ++ comma :: after'.pieces)
          (cut pieces' (cut closing.pieces (.sign ')' :: rest))) := by
      rw [Lexeme.cut_append, Spelling.cut_padded]
      rfl
    rw [Lexeme.cut_flatten]
    dsimp only [List.foldr_cons, List.foldr_nil]
    rw [hsegments words hwords, hshape, hmore]
    rfl

/-- **Properties are read.** -/
theorem Properties.reads {t : Text} {ps : List ParseTree.Property} (h : Properties t ps) :
    ∃ pieces, Cuts t (.sign '(' :: pieces) ∧ ∀ rest, ∃ read,
      Parsing.readProperties (cut pieces rest) = some (read, rest) ∧
        ((∀ p ∈ ps, p.Plain) ∨ (∀ p ∈ read, p.Plain) → read = ps) := by
  obtain ⟨opening, hlist, closing⟩ := h
  obtain ⟨pieces, l, name, before, hpieces, hl, _, hread⟩ := hlist.reads
  have hopen : Cuts "(" [.sign '('] := cuts_sign (by decide)
  have hclose : Cuts ")" [.sign ')'] := cuts_sign (by decide)
  refine ⟨[opening.pieces, pieces, closing.pieces, [.sign ')']].flatten, hopen.append
    (opening.cuts.append (hpieces.append (closing.cuts.append (hclose.append .nil)))),
    fun rest => ?_⟩
  obtain ⟨link, segments, last, hsegments, hlist⟩ :=
    hread opening.pieces (isPart_gap opening) closing rest
  have hname : word? (cut (opening.pieces ++ l :: before.pieces) []) = some name := by
    have hpadded := Spelling.word?_padded opening before hl
    simpa [padded] using hpadded
  obtain ⟨read, hassignments⟩ :=
    hlist.reads (2 ≤ segments.length && segments.length % 2 = 0) name link
  refine ⟨read, ?_, hlist.unique _ _ hassignments⟩
  rw [Lexeme.cut_flatten]
  show Parsing.readProperties
    (cut opening.pieces (cut pieces (cut closing.pieces (.sign ')' :: rest)))) = _
  rw [Parsing.readProperties, hsegments]
  dsimp only
  rw [hname]
  dsimp only
  rw [hassignments]
  rfl

/-! ## 5. Entities -/

theorem Key.reads {t : Text} {key : ParseTree.Key} (h : Key t key) :
    ∃ pieces, Cuts t pieces ∧ ∀ (after : Gap) {ls : List Lexeme}, Behind ls →
      Parsing.readKey (cut after.pieces (cut pieces ls)) = some (key, ls) := by
  cases h with
  | plain h =>
    obtain ⟨l, hl, htoken, _⟩ := h.cuts
    exact ⟨[l], hl, fun after _ hls => Spelling.readKey_plain after htoken hls⟩
  | named hholder h =>
    obtain ⟨l, hl, htoken, _⟩ := hholder.cuts
    obtain ⟨m, hm, hmtoken, _⟩ := h.cuts
    have hequals : Cuts "=" [.sign '='] := cuts_sign (by decide)
    exact ⟨[l, .sign '=', m], hl.append (hequals.append (hm.append .nil)), fun after _ hls =>
      Spelling.readKey_named after htoken hmtoken hls⟩

theorem KeyPart.reads {t : Text} {key : Option ParseTree.Key} (h : KeyPart t key) :
    ∃ pieces, Cuts t pieces ∧ ∀ {ls : List Lexeme}, Behind ls → KeyRead ls (cut pieces ls) key := by
  cases h with
  | absent => exact ⟨[], .nil, fun _ => .absent⟩
  | given before after h =>
    obtain ⟨pieces, hpieces, hread⟩ := h.reads
    have hcolon : Cuts ":" [.sign ':'] := cuts_sign (by decide)
    refine ⟨[before.pieces, [.sign ':'], after.pieces, pieces].flatten, before.cuts.append
      (hcolon.append (after.cuts.append (hpieces.append .nil))), fun hls => ?_⟩
    rw [Lexeme.cut_flatten]
    exact .given before (hread after hls)

theorem PropertiesPart.reads {t : Text} {ps : List ParseTree.Property} (h : PropertiesPart t ps) :
    ∃ pieces, Cuts t pieces ∧ ∀ rest, ∃ read, ListRead rest (cut pieces rest) read ∧
      ((∀ p ∈ ps, p.Plain) ∨ (∀ p ∈ read, p.Plain) → read = ps) := by
  cases h with
  | absent => exact ⟨[], .nil, fun _ => ⟨[], .absent, fun _ => rfl⟩⟩
  | given before h =>
    obtain ⟨pieces, hpieces, hread⟩ := h.reads
    refine ⟨before.pieces ++ .sign '(' :: pieces, before.cuts.append hpieces, fun rest => ?_⟩
    obtain ⟨read, hread, hone⟩ := hread rest
    rw [Lexeme.cut_append]
    exact ⟨read, .given before hread, hone⟩

/-- **An entity is read**, before nothing or before blanks and something else than a sign. -/
theorem Entity.reads {t : Text} {e : ParseTree.Entity} (h : Entity t e) :
    ∃ l name pieces, Cuts t (l :: pieces) ∧ Lexeme.token? l = some name ∧ ∀ rest, Ended rest →
      ∃ read, Parsing.readEntity (push l (cut pieces rest)) = some (read, rest) ∧
        (e.Plain ∨ read.Plain → read = e) := by
  obtain ⟨hname, hkey, hlist⟩ := h
  obtain ⟨l, hl, htoken, _⟩ := hname.cuts
  obtain ⟨keyPieces, hkeyPieces, hkey⟩ := hkey.reads
  obtain ⟨listPieces, hlistPieces, hlist⟩ := hlist.reads
  refine ⟨l, _, [keyPieces, listPieces].flatten, hl.append (hkeyPieces.append
    (hlistPieces.append .nil)), htoken, fun rest hrest => ?_⟩
  obtain ⟨read, hlist, hone⟩ := hlist rest
  rw [Lexeme.cut_flatten]
  refine ⟨_, Spelling.readEntity_push htoken (hkey (hlist.behind hrest)) hlist hrest,
    fun hplain => ?_⟩
  rw [hone hplain]

/-! ## 6. Instructions -/

/-- **A text with a derivation is read**, and as what the derivation says if that or what is read has no
    commas to choose. -/
theorem Instruction.reads {t : Text} {w : ParseTree} (h : Instruction t w) :
    ∃ read, Parser.ofLexemes t = some read ∧ (w.Plain ∨ read.Plain → read = w) := by
  cases h with
  | insert h =>
    obtain ⟨l, _, pieces, hcuts, _, hread⟩ := h.reads
    obtain ⟨left, hleft, hone⟩ := hread [] (.inl rfl)
    refine ⟨.insert left, Option.bind_eq_some_iff.mpr ⟨_, hcuts.ofText?, ?_⟩,
      fun hplain => congrArg _ (hone hplain)⟩
    show Parsing.readInstruction (push l (cut pieces [])) = _
    rw [Parsing.readInstruction, hleft]
  | connect hl before hm after hr =>
    obtain ⟨l, _, lpieces, hlcuts, _, hleft⟩ := hl.reads
    obtain ⟨m, _, mpieces, hmcuts, hmtoken, hrelationship⟩ := hm.reads
    obtain ⟨r, _, rpieces, hrcuts, hrtoken, hright⟩ := hr.reads
    have hcuts := hlcuts.append (before.cuts.append (hmcuts.append (after.cuts.append
      (hrcuts.append .nil))))
    -- from the last entity to the first, since what is behind an entity ends it
    obtain ⟨right, hright, hrone⟩ := hright [] (.inl rfl)
    obtain ⟨hafter, hended'⟩ := Spelling.cut_space after hrtoken (cut rpieces [])
    obtain ⟨relationship, hrelationship, hmone⟩ := hrelationship _ hended'
    obtain ⟨hbefore, hended⟩ := Spelling.cut_space before hmtoken
      (cut mpieces (.blank :: push r (cut rpieces [])))
    obtain ⟨left, hleft, hlone⟩ := hleft _ hended
    have hshape : cut [l :: lpieces, before.pieces, m :: mpieces, after.pieces, r :: rpieces].flatten []
        = push l (cut lpieces (.blank :: push m (cut mpieces (.blank :: push r (cut rpieces []))))) := by
      rw [← hbefore, ← hafter]
      exact Lexeme.cut_flatten _ []
    refine ⟨.connect left relationship right,
      Option.bind_eq_some_iff.mpr ⟨_, hcuts.ofText?, ?_⟩, fun hplain => ?_⟩
    · exact (congrArg Parsing.readInstruction hshape).trans
        (Spelling.readInstruction_connect hleft hrelationship hright)
    · rw [hlone (hplain.imp (fun h => h.1) fun h => h.1),
        hmone (hplain.imp (fun h => h.2.1) fun h => h.2.1),
        hrone (hplain.imp (fun h => h.2.2) fun h => h.2.2)]

/-- **A text that has a derivation without commas to choose has no other.** -/
theorem Instruction.unique {t : Text} {w w' : ParseTree} (h : Instruction t w)
    (h' : Instruction t w') (hplain : w.Plain) : w' = w := by
  obtain ⟨read, hread, heq⟩ := h.reads
  obtain ⟨read', hread', heq'⟩ := h'.reads
  rw [hread] at hread'
  cases hread'
  have hsame : read = w := heq (.inl hplain)
  exact (heq' (.inr (hsame ▸ hplain))).symm.trans hsame

/-- The empty text has no derivation. -/
theorem Instruction.ne_nil {t : Text} {w : ParseTree} (h : Instruction t w) : t ≠ [] := by
  rintro rfl
  obtain ⟨read, hread, _⟩ := h.reads
  rw [Parser.ofLexemes, Lexeme.ofText?_nil] at hread
  cases hread

end Grammar

/-- **Parsing by way of lexemes accepts the grammar.** -/
theorem Parser.ofLexemes_acceptsGrammar : Parser.ofLexemes.AcceptsGrammar where
  derives := Parser.derives_of_ofLexemes
  finds h := by
    obtain ⟨read, hread, _⟩ := h.reads
    exact ⟨read, hread⟩

/-- **Every parser that accepts the grammar finds a derivation without commas to choose.** -/
theorem Parser.AcceptsGrammar.eq_some_of_plain {parser : Parser} (h : parser.AcceptsGrammar) {t : Text}
    {tree : ParseTree} (hderives : Grammar.Instruction t tree) (hplain : tree.Plain) :
    parser t = some tree := by
  obtain ⟨found, hfound⟩ := h.finds hderives
  rw [hfound, hderives.unique (h.derives hfound) hplain]

/-! ## 7. Reading -/

/-- The instruction that a failure to read one is about. -/
def Error.instruction? : Error → Option Text
  | .emptyInstruction text | .noReading text | .badOperand _ text => some text
  | _ => none

namespace Instruction

variable {parser : Parser} {t : Text}

theorem read_of_tree (h : parser.AcceptsGrammar) {tree : ParseTree} (htree : parser t.strip = some tree) :
    Instruction.read parser t = tree.build.mapError fun operand => .badOperand operand t := by
  have hne : ¬ t.strip.isEmpty = true := fun hempty =>
    (h.derives htree).ne_nil (List.isEmpty_iff.mp hempty)
  rw [Instruction.read, if_neg hne, htree]

theorem read_of_none (h : t.strip = [] ∨ parser t.strip = none) :
    ∃ e, Instruction.read parser t = .error e ∧ e.instruction? = some t := by
  rw [Instruction.read]
  by_cases hempty : t.strip.isEmpty = true
  · rw [if_pos hempty]
    exact ⟨_, rfl, rfl⟩
  · have hnone : parser t.strip = none := h.resolve_left fun hnil => hempty (List.isEmpty_iff.mpr hnil)
    rw [if_neg hempty, hnone]
    exact ⟨_, rfl, rfl⟩

theorem instruction?_of_read (h : parser.AcceptsGrammar) {e : Error}
    (hread : Instruction.read parser t = .error e) : e.instruction? = some t := by
  cases htree : parser t.strip with
  | none =>
    obtain ⟨e', herror, htext⟩ := read_of_none (.inr htree)
    rw [herror] at hread
    cases hread
    exact htext
  | some tree =>
    rw [read_of_tree h htree] at hread
    cases hbuild : tree.build with
    | ok i =>
      rw [hbuild] at hread
      cases hread
    | error operand =>
      rw [hbuild] at hread
      cases hread
      rfl

/-- What is read is what a derivation of the text means. -/
theorem means_of_read (h : parser.AcceptsGrammar) {i : Instruction}
    (hread : Instruction.read parser t = .ok i) :
    ∃ tree, Grammar.Instruction t.strip tree ∧ tree.Means i := by
  cases htree : parser t.strip with
  | none =>
    obtain ⟨e, herror, _⟩ := read_of_none (.inr htree)
    rw [herror] at hread
    cases hread
  | some tree =>
    rw [read_of_tree h htree] at hread
    cases hbuild : tree.build with
    | error operand =>
      rw [hbuild] at hread
      cases hread
    | ok i' =>
      rw [hbuild] at hread
      cases hread
      exact ⟨tree, h.derives htree, ParseTree.means_of_build hbuild⟩

/-- **Reading accepts what the grammar does**, with any parser that accepts the grammar. What is read is
    what a derivation of the text means, blanks around it aside. Nothing is read where there is nothing
    or no derivation; where there is one, and in each the operands have the form of a decimal, something
    is. Every failure is about the instruction, and keeps its text with the blanks around it. -/
theorem read_grammar (parser : Parser) (h : parser.AcceptsGrammar) (t : Text) :
    (∀ i, Instruction.read parser t = .ok i →
      ∃ tree, Grammar.Instruction t.strip tree ∧ tree.Means i) ∧
    ((t.strip = [] ∨ ∀ tree, ¬ Grammar.Instruction t.strip tree) →
      ∃ e, Instruction.read parser t = .error e ∧ e.instruction? = some t) ∧
    ((∃ tree, Grammar.Instruction t.strip tree) →
      (∀ tree, Grammar.Instruction t.strip tree → ∀ o ∈ tree.operands, NumberPattern o) →
        ∃ i, Instruction.read parser t = .ok i) ∧
    ∀ e, Instruction.read parser t = .error e → e.instruction? = some t := by
  refine ⟨fun i hread => means_of_read h hread, fun hnone => ?_, fun ⟨tree, hderives⟩ hoperands => ?_,
    fun e hread => instruction?_of_read h hread⟩
  · exact read_of_none (hnone.imp_right h.none_iff.mpr)
  · obtain ⟨found, hfound⟩ := h.finds hderives
    obtain ⟨i, hbuild⟩ := ParseTree.exists_build (hoperands found (h.derives hfound))
    rw [read_of_tree h hfound, hbuild]
    exact ⟨i, rfl⟩

/-- An update with blanks around it is read; a colon without an id behind it is not. -/
theorem read_grammar_update :
    (∃ i tree, Instruction.read .ofLexemes " Dog(age+=1) " = .ok i ∧
      Grammar.Instruction "Dog(age+=1)" tree ∧ tree.Means i) ∧
    ∃ e, Instruction.read .ofLexemes "Dog:" = .error e ∧ e.instruction? = some "Dog:" := by
  have hdog : ("Dog" : Text) ≠ [] ∧ ∀ c ∈ ("Dog" : Text), Lexeme.isBare c = true := by decide
  constructor
  · have hage : Grammar.Word "age" (.bare "age") := .bare (by decide) (by decide)
    have hvalue : Grammar.Word "1" (.bare "1") := .bare (by decide) (by decide)
    have hderives : Grammar.Instruction "Dog(age+=1)"
        (.insert ⟨.bare "Dog", none, [.arithmetic (.bare "age") .add (.bare "1")]⟩) :=
      .insert (.parts (.bare hdog.1 hdog.2) .absent (.given .none (.list .none
        (.one (.arithmetic hage .none .add .none hvalue)) .none)))
    obtain ⟨hmeans, _, hread, _⟩ :=
      read_grammar .ofLexemes Parser.ofLexemes_acceptsGrammar " Dog(age+=1) "
    have hstrip : Text.strip " Dog(age+=1) " = "Dog(age+=1)" := by decide
    rw [hstrip] at hmeans hread
    have hone : NumberPattern "1" := (isSome_operand?_iff "1").mp (by decide)
    have hplain : (',' : CodePoint) ∉ ("age" : Text) ∧ (',' : CodePoint) ∉ ("1" : Text) := by decide
    obtain ⟨i, hi⟩ := hread ⟨_, hderives⟩ fun tree htree o ho => by
      rw [hderives.unique htree (List.forall_mem_singleton.mpr hplain)] at ho
      rw [List.mem_singleton.mp ho]
      exact hone
    obtain ⟨tree, htree, hmeans⟩ := hmeans i hi
    exact ⟨i, tree, hi, htree, hmeans⟩
  · have hlexemes : Lexeme.ofText? "Dog:" = some [.bare "Dog", .sign ':'] :=
      ((Lexeme.cuts_bare hdog.1 hdog.2).append (cuts_sign (c := ':') (by decide))).ofText?
    have hstrip : Text.strip "Dog:" = "Dog:" := by decide
    refine (read_grammar .ofLexemes Parser.ofLexemes_acceptsGrammar "Dog:").2.1 (.inr fun tree h => ?_)
    obtain ⟨read, hread, _⟩ := h.reads
    rw [hstrip, Parser.ofLexemes, hlexemes] at hread
    cases hread

end Instruction

end GraphFeed
