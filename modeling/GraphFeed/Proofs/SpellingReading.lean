import GraphFeed.Proofs.GrammarCompleteness

/-!
# Spellings are read back

Reading undoes writing, however an instruction is written, and with any parser that accepts the grammar
(`Instruction.read_spelling`). What is written has one derivation, whatever words, blanks and number of
properties are in it: the tree of what is written (`Spelling.tree`) has no bare commas, so that there is
no other (`Spelling.derives_iff`).

* Of that tree the instruction is built that is written: operands are read as their numbers, and names
  that are all different keep their assignments in their order (`Spelling.build_tree`,
  `Properties.ofList_of_nodup`).
* A spelling neither begins nor ends with a blank, so that stripping takes away the blanks around it
  and nothing else (`Spelling.firm`, `Text.strip_between`).
-/

namespace GraphFeed

namespace Spelling

/-! ## 1. The tree of a spelling -/

/-- The word as a token. -/
def Word.token : Word → Token
  | .bare run .. => .bare run
  | .quoted mark _ inside .. => .quoted (.concat [[mark], inside, [mark]])

/-- The assignment with its texts as they are written. -/
def Property.tree : Property → ParseTree.Property
  | .set name _ _ value => .set name.token value.token
  | .update name _ operation _ operand => .arithmetic name.token operation operand.word.token
  | .defaulted name _ _ default _ _ operation _ operand =>
    .defaulted name.token default.word.token operation operand.word.token

/-- The assignments of a list, with their texts as they are written. -/
def PropertyList.trees (l : PropertyList) : List ParseTree.Property :=
  (l.first :: l.more.map fun x => x.2.2).map Property.tree

/-- The id with its texts as they are written. -/
def Key.tree : Key → ParseTree.Key
  | .plain _ _ value => .plain value.token
  | .named _ _ holder value => .named holder.token value.token

/-- The entity with its texts as they are written. -/
def Entity.tree (e : Entity) : ParseTree.Entity where
  name := e.name.token
  key := e.key.map Key.tree
  properties := (e.list.map PropertyList.trees).getD []

/-- The instruction with its texts as they are written. -/
def tree : Spelling → ParseTree
  | .insert left => .insert left.tree
  | .connect left _ relationship _ right => .connect left.tree relationship.tree right.tree

/-! ## 2. Its derivation -/

theorem Word.derives (w : Word) : Grammar.Word w.text w.token := by
  cases w with
  | bare run hne hrun => exact .bare hne fun c hc => (hrun c hc).1
  | quoted mark value inside hmark h => exact .quoted hmark (h.isInside hmark)

/-- A word has no bare comma. -/
theorem Word.plain (w : Word) : w.token.Plain := by
  cases w with
  | bare run hne hrun => exact fun hcomma => (hrun _ hcomma).2 rfl
  | quoted mark value inside hmark h => trivial

theorem Property.derives (p : Property) : Grammar.Property p.text p.tree := by
  cases p with
  | set name before after value => exact .set name.derives before after value.derives
  | update name before operation after operand =>
    exact .arithmetic name.derives before operation after operand.word.derives
  | defaulted name before opening default closing between operation after operand =>
    exact .defaulted name.derives before opening default.word.derives closing between operation after
      operand.word.derives

theorem Property.plain (p : Property) : p.tree.Plain := by
  cases p with
  | set name before after value => exact ⟨name.plain, value.plain⟩
  | update name before operation after operand => exact ⟨name.plain, operand.word.plain⟩
  | defaulted name before opening default closing between operation after operand =>
    exact ⟨name.plain, operand.word.plain⟩

/-- A property with those that follow it. -/
theorem derives_more (first : Property) (more : List (Gap × Gap × Property)) :
    Grammar.PropertyList (first.text ++ PropertyList.moreText more)
      ((first :: more.map fun x => x.2.2).map Property.tree) := by
  induction more generalizing first with
  | nil =>
    show Grammar.PropertyList (first.text ++ []) _
    rw [List.append_nil]
    exact .one first.derives
  | cons x more ih =>
    obtain ⟨before, after, next⟩ := x
    have hlist := Grammar.PropertyList.more first.derives before after (ih next)
    have htext : first.text ++ PropertyList.moreText ((before, after, next) :: more)
        = .concat [first.text, before.text, ",", after.text,
          next.text ++ PropertyList.moreText more] := by
      simp only [PropertyList.moreText, Text.concat, List.flatten_cons, List.flatten_nil,
        List.append_nil]
    rw [htext]
    exact hlist

theorem PropertyList.derives (l : PropertyList) : Grammar.PropertiesPart l.text l.trees := by
  have hlist := Grammar.PropertiesPart.given l.before
    (.list l.opening (derives_more l.first l.more) l.closing)
  have htext : l.text = l.before.text ++ .concat ["(", l.opening.text,
      l.first.text ++ moreText l.more, l.closing.text, ")"] := by
    simp only [text, Text.concat, List.flatten_cons, List.flatten_nil, List.append_nil,
      List.append_assoc]
  rw [htext]
  exact hlist

theorem Key.derives (key : Key) : Grammar.KeyPart key.text (some key.tree) := by
  cases key with
  | plain before after value => exact .given before after (.plain value.derives)
  | named before after holder value =>
    have hkey := Grammar.KeyPart.given before after (.named holder.derives value.derives)
    have htext : text (.named before after holder value)
        = .concat [before.text, ":", after.text, .concat [holder.text, "=", value.text]] := by
      simp only [text, Text.concat, List.flatten_cons, List.flatten_nil, List.append_nil]
    rw [htext]
    exact hkey

theorem Entity.derives (e : Entity) : Grammar.Entity e.text e.tree := by
  obtain ⟨name, key, list⟩ := e
  have hkey : Grammar.KeyPart ((key.map Key.text).getD []) (key.map Key.tree) := by
    cases key with
    | none => exact .absent
    | some key => exact key.derives
  have hlist : Grammar.PropertiesPart ((list.map PropertyList.text).getD [])
      ((list.map PropertyList.trees).getD []) := by
    cases list with
    | none => exact .absent
    | some list => exact list.derives
  exact .parts name.derives hkey hlist

theorem Entity.plain (e : Entity) : e.tree.Plain := by
  obtain ⟨name, key, list⟩ := e
  cases list with
  | none => exact nofun
  | some list =>
    intro p hp
    obtain ⟨property, _, rfl⟩ := List.mem_map.mp hp
    exact property.plain

theorem derives (s : Spelling) : Grammar.Instruction s.text s.tree := by
  cases s with
  | insert left => exact .insert left.derives
  | connect left before relationship after right =>
    exact .connect left.derives before relationship.derives after right.derives

theorem plain (s : Spelling) : s.tree.Plain := by
  cases s with
  | insert left => exact left.plain
  | connect left before relationship after right =>
    exact ⟨left.plain, relationship.plain, right.plain⟩

/-- **What is written has one derivation.** -/
theorem derives_iff (s : Spelling) (tree : ParseTree) :
    Grammar.Instruction s.text tree ↔ tree = s.tree := by
  constructor
  · intro h
    exact s.derives.unique h s.plain
  · rintro rfl
    exact s.derives

/-! ## 3. What is built of it -/

theorem Word.value_token (w : Word) : w.token.value = w.value := by
  cases w with
  | bare run hne hrun => rfl
  | quoted mark value inside hmark h => exact (unquote_marked mark mark inside).trans h.decode_eq

/-- **The words that write a number are those that match the pattern.** -/
theorem exists_numeral_iff (w : Word) : (∃ n : Numeral, n.word = w) ↔ NumberPattern w.value := by
  rw [← isSome_operand?_iff, Option.isSome_iff_exists]
  constructor
  · rintro ⟨n, rfl⟩
    exact ⟨n.number, operand?_eq_some_iff.mpr n.denotes⟩
  · rintro ⟨x, hx⟩
    exact ⟨⟨w, x, operand?_eq_some_iff.mp hx⟩, rfl⟩

theorem readOperand_numeral (n : Numeral) : readOperand n.word.token.value = .ok (.ofNumber n.number) := by
  rw [n.word.value_token]
  exact readOperand_of_denotes n.denotes

theorem Property.build_tree (p : Property) : p.tree.build = .ok (p.name.value, p.assignment) := by
  cases p with
  | set name before after value =>
    rw [tree, ParseTree.Property.build, name.value_token, value.value_token]
    rfl
  | update name before operation after operand =>
    rw [tree, ParseTree.Property.build, readOperand_numeral, name.value_token]
    rfl
  | defaulted name before opening default closing between operation after operand =>
    rw [tree, ParseTree.Property.build, readOperand_numeral]
    dsimp only
    rw [readOperand_numeral, name.value_token]
    rfl

theorem buildAll_trees : ∀ ps : List Property,
    ParseTree.buildAll (ps.map Property.tree) = .ok (ps.map fun p => (p.name.value, p.assignment))
  | [] => rfl
  | p :: ps => by
    rw [List.map_cons, ParseTree.buildAll, p.build_tree]
    dsimp only
    rw [buildAll_trees ps]
    rfl

end Spelling

/-- A name that is not there comes last. -/
theorem Properties.assign_of_notMem {name : Text} {a : Assignment} :
    ∀ {ps : Properties}, name ∉ ps.map Prod.fst → ps.assign name a = ps ++ [(name, a)]
  | [], _ => rfl
  | (n, b) :: ps, h => by
    have hne : n ≠ name := by
      rintro rfl
      exact h List.mem_cons_self
    have hlater : Properties.assign name a ps = ps ++ [(name, a)] :=
      assign_of_notMem fun hmem => h (List.mem_cons_of_mem _ hmem)
    rw [Properties.assign, if_neg hne, hlater]
    rfl

/-- Assignments to names that are all different are all in force, in their order. -/
theorem Properties.ofList_of_nodup {ps : Properties} (h : (ps.map Prod.fst).Nodup) :
    Properties.ofList ps = ps := by
  have hfold : ∀ {ps done : Properties}, ((done ++ ps).map Prod.fst).Nodup →
      ps.foldl (fun ps p => ps.assign p.1 p.2) done = done ++ ps := by
    intro ps
    induction ps with
    | nil =>
      intro done _
      exact (List.append_nil done).symm
    | cons p ps ih =>
      intro done hnodup
      have hfresh : p.1 ∉ done.map Prod.fst := by
        rw [List.map_append, List.nodup_append] at hnodup
        intro hmem
        exact hnodup.2.2 p.1 hmem p.1 List.mem_cons_self rfl
      rw [List.foldl_cons]
      show ps.foldl _ (done.assign p.1 p.2) = _
      rw [assign_of_notMem hfresh, ih (by rwa [List.append_assoc]), List.append_assoc]
      rfl
  exact hfold h

namespace Spelling

theorem Entity.build_tree (e : Entity) : e.tree.build = .ok e.entity := by
  obtain ⟨name, key, list⟩ := e
  obtain ⟨assignments, hbuild, hlist⟩ : ∃ assignments,
      ParseTree.buildAll ((list.map PropertyList.trees).getD []) = .ok assignments ∧
        GraphFeed.Properties.ofList assignments = (list.map PropertyList.properties).getD [] := by
    cases list with
    | none => exact ⟨[], rfl, rfl⟩
    | some list =>
      have hnodup : (list.properties.map Prod.fst).Nodup := by
        rw [PropertyList.properties, List.map_map]
        exact list.nodup
      exact ⟨list.properties, buildAll_trees _, Properties.ofList_of_nodup hnodup⟩
  rw [tree, ParseTree.Entity.build, hbuild]
  show Except.ok (GraphFeed.Entity.mk _ _ _ (GraphFeed.Properties.ofList assignments)) = _
  rw [hlist, name.value_token]
  cases key with
  | none => rfl
  | some key =>
    cases key with
    | plain before after value =>
      show Except.ok (GraphFeed.Entity.mk _ _ (some value.token.value) _) = _
      rw [value.value_token]
      rfl
    | named before after holder value =>
      show Except.ok (GraphFeed.Entity.mk _ holder.token.value (some value.token.value) _) = _
      rw [holder.value_token, value.value_token]
      rfl

/-- **Of the tree of a spelling the instruction is built that is written.** -/
theorem build_tree (s : Spelling) : s.tree.build = .ok s.instruction := by
  cases s with
  | insert left =>
    rw [tree, ParseTree.build, left.build_tree]
    rfl
  | connect left before relationship after right =>
    rw [tree, ParseTree.build, left.build_tree]
    dsimp only
    rw [relationship.build_tree]
    dsimp only
    rw [right.build_tree]
    rfl

end Spelling

/-! ## 4. The ends of a text -/

namespace Text

/-- The text begins with something else than a blank. -/
def BeginsFirm (t : Text) : Prop := ∃ c rest, t = c :: rest ∧ c.isBlank = false

/-- The text ends with something else than a blank. -/
def EndsFirm (t : Text) : Prop := ∃ rest c, t = rest ++ [c] ∧ c.isBlank = false

theorem BeginsFirm.append {a : Text} (h : BeginsFirm a) (b : Text) : BeginsFirm (a ++ b) := by
  obtain ⟨c, rest, rfl, hc⟩ := h
  exact ⟨c, rest ++ b, rfl, hc⟩

theorem EndsFirm.concat {last : Text} (h : EndsFirm last) (parts : List Text) :
    EndsFirm (.concat (parts ++ [last])) := by
  obtain ⟨rest, c, rfl, hc⟩ := h
  refine ⟨Text.concat (parts ++ [rest]), c, ?_, hc⟩
  rw [Text.concat, Text.concat, List.flatten_concat, List.flatten_concat, List.append_assoc]

theorem EndsFirm.followed {a b : Text} (ha : EndsFirm a) (hb : b = [] ∨ EndsFirm b) :
    EndsFirm (a ++ b) := by
  rcases hb with rfl | ⟨rest, c, rfl, hc⟩
  · rw [List.append_nil]
    exact ha
  · exact ⟨a ++ rest, c, (List.append_assoc _ _ _).symm, hc⟩

/-- **Stripping takes away the blanks around a text**, and nothing else. -/
theorem strip_between {a t b : Text} (ha : ∀ c ∈ a, c.isBlank = true) (hb : ∀ c ∈ b, c.isBlank = true)
    (hbegins : BeginsFirm t) (hends : EndsFirm t) : strip (.concat [a, t, b]) = t := by
  have hleft : stripLeft (.concat [a, t, b]) = t ++ b := by
    obtain ⟨c, rest, rfl, hc⟩ := hbegins
    show (a ++ (c :: rest ++ (b ++ []))).dropWhile CodePoint.isBlank = _
    rw [List.dropWhile_append_of_pos ha, List.append_nil, List.cons_append,
      List.dropWhile_cons_of_neg (by rw [hc]; decide)]
  have hright : stripRight (t ++ b) = t := by
    obtain ⟨rest, c, rfl, hc⟩ := hends
    have hreversed : ∀ c ∈ b.reverse, c.isBlank = true := fun c hc => hb c (List.mem_reverse.mp hc)
    rw [stripRight, List.reverse_append, List.dropWhile_append_of_pos hreversed, List.reverse_concat,
      List.dropWhile_cons_of_neg (by rw [hc]; decide), List.reverse_cons, List.reverse_reverse]
  rw [strip, hleft, hright]

end Text

namespace Spelling

open Text (BeginsFirm EndsFirm)

theorem isBlank_of_isBare {c : CodePoint} (h : Lexeme.isBare c = true) : c.isBlank = false := by
  obtain ⟨hlo, hhi⟩ := Lexeme.isBare_bounds h
  simp only [CodePoint.isBlank, blankRanges, List.any_cons, List.any_nil, Bool.or_false,
    Bool.or_eq_false_iff, Bool.and_eq_false_iff, decide_eq_false_iff_not]
  omega

theorem isBlank_of_isMark {c : CodePoint} (h : Lexeme.isMark c = true) : c.isBlank = false := by
  rcases Lexeme.eq_of_isMark h with rfl | rfl
  · decide
  · decide

theorem isBlank_of_gap {c : CodePoint} (h : Lexeme.isBlank c = true) : c.isBlank = true := by
  simp only [Lexeme.isBlank, CodePoint.between, Bool.or_eq_true, Bool.and_eq_true,
    decide_eq_true_eq] at h
  rcases h with rfl | ⟨hlo, hhi⟩
  · decide
  · have hlo' : 9 ≤ c.val := hlo
    have hhi' : c.val ≤ 12 := hhi
    simp only [CodePoint.isBlank, blankRanges, List.any_cons, Bool.or_eq_true, Bool.and_eq_true,
      decide_eq_true_eq]
    omega

/-- A word has no blanks at its ends. -/
theorem Word.firm (w : Word) : BeginsFirm w.text ∧ EndsFirm w.text := by
  cases w with
  | bare run hne hrun =>
    have hfirm : ∀ c ∈ run, c.isBlank = false := fun c hc => isBlank_of_isBare (hrun c hc).1
    constructor
    · obtain ⟨c, rest, rfl⟩ := List.exists_cons_of_ne_nil hne
      exact ⟨c, rest, rfl, hfirm c List.mem_cons_self⟩
    · have hlast : run.dropLast ++ [run.getLast hne] = run := List.dropLast_concat_getLast hne
      exact ⟨run.dropLast, run.getLast hne, hlast.symm, hfirm _ (List.getLast_mem hne)⟩
  | quoted mark value inside hmark h =>
    exact ⟨⟨mark, _, rfl, isBlank_of_isMark hmark⟩, ⟨mark :: inside, mark, rfl,
      isBlank_of_isMark hmark⟩⟩

/-- Nor has an entity. -/
theorem Entity.firm (e : Entity) : BeginsFirm e.text ∧ EndsFirm e.text := by
  obtain ⟨hbegins, hends⟩ := e.name.firm
  have hkey : (e.key.map Key.text).getD [] = [] ∨ EndsFirm ((e.key.map Key.text).getD []) := by
    cases e.key with
    | none => exact .inl rfl
    | some key =>
      cases key with
      | plain before after value => exact .inr (value.firm.2.concat [_, _, _])
      | named before after holder value => exact .inr (value.firm.2.concat [_, _, _, _, _])
  have hlist : (e.list.map PropertyList.text).getD [] = []
      ∨ EndsFirm ((e.list.map PropertyList.text).getD []) := by
    cases e.list with
    | none => exact .inl rfl
    | some list =>
      have hclosing : EndsFirm ")" := ⟨[], ')', rfl, by decide⟩
      exact .inr (hclosing.concat [_, _, _, _, _, _])
  have htext : e.text
      = e.name.text ++ (e.key.map Key.text).getD [] ++ (e.list.map PropertyList.text).getD [] := by
    rw [text, Text.concat, List.flatten_cons, List.flatten_cons, List.flatten_singleton,
      List.append_assoc]
  rw [htext]
  exact ⟨(hbegins.append _).append _, (hends.followed hkey).followed hlist⟩

theorem firm (s : Spelling) : BeginsFirm s.text ∧ EndsFirm s.text := by
  cases s with
  | insert left => exact left.firm
  | connect left before relationship after right =>
    exact ⟨left.firm.1.append _, right.firm.2.concat [_, _, _, _]⟩

end Spelling

/-! ## 5. Reading undoes writing -/

/-- **Reading undoes writing, over every spelling**, with any parser that accepts the grammar. A
    spelling, with blanks before and behind it or without, is read as the instruction that it spells. It
    has one derivation, so that no parser can find another. The instructions that have a spelling are
    all that can be written: those whose updates are by numbers and start from numbers, with the names
    of an entity's properties all different, and with the default property for an id that is not
    there. A number may be any word that matches the pattern. -/
theorem Instruction.read_spelling (parser : Parser) (h : parser.AcceptsGrammar) :
    (∀ (before after : Spelling.Gap) (s : Spelling),
      Instruction.read parser (.concat [before.text, s.text, after.text]) = .ok s.instruction) ∧
    (∀ (s : Spelling) (tree : ParseTree), Grammar.Instruction s.text tree ↔ tree = s.tree) ∧
    (∀ i : Instruction, i.Writable ↔ ∃ s : Spelling, s.instruction = i) ∧
    ∀ w : Spelling.Word, (∃ n : Spelling.Numeral, n.word = w) ↔ NumberPattern w.value := by
  refine ⟨fun before after s => ?_, Spelling.derives_iff, Instruction.writable_iff,
    Spelling.exists_numeral_iff⟩
  obtain ⟨hbegins, hends⟩ := s.firm
  have hstrip : Text.strip (.concat [before.text, s.text, after.text]) = s.text :=
    Text.strip_between (fun c hc => Spelling.isBlank_of_gap (before.blank c hc))
      (fun c hc => Spelling.isBlank_of_gap (after.blank c hc)) hbegins hends
  have hfound : parser s.text = some s.tree := h.eq_some_of_plain s.derives s.plain
  rw [← hstrip] at hfound
  rw [read_of_tree h hfound, s.build_tree]
  rfl

/-- Two properties: the operand of the first one begins with a hyphen, as its operator does, and the name
    of the second one has a comma between its marks. -/
theorem Instruction.read_spelling_twoProperties :
    let name : Spelling.Word := .bare "hits" (by decide) (by decide)
    let operand : Spelling.Numeral :=
      ⟨.bare "-5" (by decide) (by decide), .int (-5), operand?_eq_some_iff.mp (by decide)⟩
    let quoted : Spelling.Word := .quoted '"' "a,b" "a,b" (by decide)
      (.plain (by decide) (by decide) (by decide) (.plain (by decide) (by decide) (by decide)
        (.plain (by decide) (by decide) (by decide) .nil)))
    let list : Spelling.PropertyList := ⟨.none, .none, .update name .none .subtract .none operand,
      [(.none, .none, .set quoted .none .none name)], .none, by decide⟩
    let s : Spelling := .insert ⟨.bare "Dog" (by decide) (by decide), none, some list⟩
    s.text = "Dog(hits-=-5,\"a,b\":hits)" ∧ Parser.ofLexemes.AcceptsGrammar ∧
    Instruction.read .ofLexemes (.concat [Spelling.Space.one.text, s.text, []]) = .ok s.instruction ∧
    (∀ tree, Grammar.Instruction s.text tree ↔ tree = s.tree) := by
  intro name operand quoted list s
  obtain ⟨hread, hderives, _⟩ := Instruction.read_spelling .ofLexemes Parser.ofLexemes_acceptsGrammar
  exact ⟨by decide, Parser.ofLexemes_acceptsGrammar, hread Spelling.Space.one.toGap .none s, hderives s⟩

end GraphFeed
