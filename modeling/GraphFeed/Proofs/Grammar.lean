import GraphFeed.Proofs.Spelling
import Mathlib.Data.List.Forall2

/-!
# The grammar of instructions

The grammar as it is written down, production by production: `Grammar.Instruction t tree` says that
`tree` is the tree of a derivation of the text `t`. A bare word may hold commas and hyphens, so that one
text may have several derivations. What a tree means is said by `ParseTree.Means`: quoted texts are
unquoted, operands are the numbers that they denote, an update without a default starts from 0, and of
several assignments to one property the last one is in force at the place of the first.

All that is known of a parser is that it accepts the grammar (`Parser.AcceptsGrammar`): it finds the
tree of some derivation, and it finds one where there is one.

What is built of a tree is what the tree means (`ParseTree.means_of_build`), and something is built if
all operands have the form of a decimal (`ParseTree.exists_build`).
-/

namespace GraphFeed

namespace Grammar

open Spelling (Gap Space)

/-! ## 1. Terminals -/

/-- A bare or a quoted text, as a token. -/
inductive Word : Text → Token → Prop
  | bare {run : Text} (hne : run ≠ []) (hrun : ∀ c ∈ run, Lexeme.isBare c = true) :
      Word run (.bare run)
  | quoted {mark : CodePoint} {inside : Text} (hmark : Lexeme.isMark mark = true)
      (h : Quotation.Inside mark inside) :
      Word (.concat [[mark], inside, [mark]]) (.quoted (.concat [[mark], inside, [mark]]))

/-! ## 2. Productions -/

/-- One property: a value that is set, an update, or an update with a default. -/
inductive Property : Text → ParseTree.Property → Prop
  | set {n v : Text} {name value : Token} (hname : Word n name) (before after : Gap)
      (hvalue : Word v value) :
      Property (.concat [n, before.text, ":", after.text, v]) (.set name value)
  | arithmetic {n v : Text} {name operand : Token} (hname : Word n name) (before : Gap)
      (operation : Arithmetic) (after : Gap) (hoperand : Word v operand) :
      Property (.concat [n, before.text, [operation.sign, '='], after.text, v])
        (.arithmetic name operation operand)
  | defaulted {n d v : Text} {name default operand : Token} (hname : Word n name)
      (before opening : Gap) (hdefault : Word d default) (closing between : Gap)
      (operation : Arithmetic) (after : Gap) (hoperand : Word v operand) :
      Property (.concat [n, before.text, "(", opening.text, d, closing.text, ")", between.text,
        [operation.sign, '='], after.text, v]) (.defaulted name default operation operand)

/-- One property or more, with commas between them. -/
inductive PropertyList : Text → List ParseTree.Property → Prop
  | one {t : Text} {p : ParseTree.Property} (h : Property t p) : PropertyList t [p]
  | more {t t' : Text} {p : ParseTree.Property} {ps : List ParseTree.Property} (h : Property t p)
      (before after : Gap) (hmore : PropertyList t' ps) :
      PropertyList (.concat [t, before.text, ",", after.text, t']) (p :: ps)

/-- Properties in parentheses. -/
inductive Properties : Text → List ParseTree.Property → Prop
  | list {t : Text} {ps : List ParseTree.Property} (opening : Gap) (h : PropertyList t ps)
      (closing : Gap) : Properties (.concat ["(", opening.text, t, closing.text, ")"]) ps

/-- An id, with the name of the property that holds it or without. -/
inductive Key : Text → ParseTree.Key → Prop
  | plain {t : Text} {id : Token} (h : Word t id) : Key t (.plain id)
  | named {n t : Text} {holder id : Token} (hholder : Word n holder) (h : Word t id) :
      Key (.concat [n, "=", t]) (.named holder id)

/-- What may stand behind the name of an entity: nothing, or a colon and a key. -/
inductive KeyPart : Text → Option ParseTree.Key → Prop
  | absent : KeyPart [] none
  | given {t : Text} {key : ParseTree.Key} (before after : Gap) (h : Key t key) :
      KeyPart (.concat [before.text, ":", after.text, t]) (some key)

/-- What may stand behind that: nothing, or properties. -/
inductive PropertiesPart : Text → List ParseTree.Property → Prop
  | absent : PropertiesPart [] []
  | given {t : Text} {ps : List ParseTree.Property} (before : Gap) (h : Properties t ps) :
      PropertiesPart (before.text ++ t) ps

/-- An entity. -/
inductive Entity : Text → ParseTree.Entity → Prop
  | parts {n k l : Text} {name : Token} {key : Option ParseTree.Key}
      {ps : List ParseTree.Property} (hname : Word n name) (hkey : KeyPart k key)
      (hlist : PropertiesPart l ps) : Entity (.concat [n, k, l]) ⟨name, key, ps⟩

/-- An instruction. -/
inductive Instruction : Text → ParseTree → Prop
  | insert {t : Text} {left : ParseTree.Entity} (h : Entity t left) : Instruction t (.insert left)
  | connect {l m r : Text} {left relationship right : ParseTree.Entity} (hleft : Entity l left)
      (before : Space) (hrelationship : Entity m relationship) (after : Space)
      (hright : Entity r right) :
      Instruction (.concat [l, before.text, m, after.text, r]) (.connect left relationship right)

end Grammar

/-- **The parser accepts the grammar**: what it finds is the tree of a derivation, and it finds one where
    there is one. Which one it finds is not said. -/
structure Parser.AcceptsGrammar (parser : Parser) : Prop where
  derives : ∀ {t : Text} {tree : ParseTree}, parser t = some tree → Grammar.Instruction t tree
  finds : ∀ {t : Text} {tree : ParseTree}, Grammar.Instruction t tree → ∃ found, parser t = some found

theorem Parser.AcceptsGrammar.none_iff {parser : Parser} (h : parser.AcceptsGrammar) {t : Text} :
    parser t = none ↔ ∀ tree, ¬Grammar.Instruction t tree := by
  constructor
  · intro hnone tree hderives
    obtain ⟨found, hfound⟩ := h.finds hderives
    rw [hnone] at hfound
    cases hfound
  · intro hnone
    exact Option.eq_none_iff_forall_ne_some.mpr fun tree hfound => hnone tree (h.derives hfound)

/-! ## 3. What a tree means -/

/-- Of assignments, these are in force: one to each name, at the place of the first assignment to
    it, and with what the last one assigns. -/
structure Properties.InForce (assignments : List (Text × Assignment)) (ps : Properties) : Prop where
  names : ps.map Prod.fst = (assignments.map Prod.fst).eraseDups
  last : ∀ p ∈ ps, assignments.reverse.lookup p.1 = some p.2

namespace ParseTree

/-- The operands of a property: that of an update, and its default. -/
def Property.operands : Property → List Text
  | .set .. => []
  | .arithmetic _ _ operand => [operand.value]
  | .defaulted _ default _ operand => [operand.value, default.value]

/-- The operands of an entity. -/
def Entity.operands (e : Entity) : List Text := e.properties.flatMap Property.operands

/-- The operands of an instruction. -/
def operands : ParseTree → List Text
  | .insert left => left.operands
  | .connect left relationship right =>
    left.operands ++ (relationship.operands ++ right.operands)

/-- What a property means. -/
inductive Property.Means : Property → Text × Assignment → Prop
  | set (name value : Token) : Means (.set name value) (name.value, .set (.text value.value))
  | arithmetic (name : Token) (operation : Arithmetic) {operand : Token} {n : Number}
      (h : NumberPattern.Denotes operand.value n) :
      Means (.arithmetic name operation operand)
        (name.value, .update operation (.ofNumber n) (.int 0))
  | defaulted (name : Token) (operation : Arithmetic) {operand default : Token} {n m : Number}
      (h : NumberPattern.Denotes operand.value n)
      (hdefault : NumberPattern.Denotes default.value m) :
      Means (.defaulted name default operation operand)
        (name.value, .update operation (.ofNumber n) (.ofNumber m))

/-- What an entity means. -/
structure Entity.Means (e : Entity) (meant : GraphFeed.Entity) : Prop where
  name : meant.name = e.name.value
  key : match e.key with
    | some (.named holder id) => meant.mergeOn = holder.value ∧ meant.id = some id.value
    | some (.plain id) => meant.mergeOn = "id" ∧ meant.id = some id.value
    | none => meant.mergeOn = "id" ∧ meant.id = none
  properties : ∃ assignments, List.Forall₂ Property.Means e.properties assignments ∧
    Properties.InForce assignments meant.properties

/-- What an instruction means. -/
inductive Means : ParseTree → Instruction → Prop
  | insert {left : Entity} {left' : GraphFeed.Entity} (h : left.Means left') :
      Means (.insert left) (.insert left')
  | connect {left relationship right : Entity} {left' relationship' right' : GraphFeed.Entity}
      (hleft : left.Means left') (hrelationship : relationship.Means relationship')
      (hright : right.Means right') :
      Means (.connect left relationship right) (.connect left' relationship' right')

end ParseTree

/-! ## 4. Repeated names -/

namespace Properties

theorem map_fst_assign (name : Text) (a : Assignment) : ∀ ps : Properties,
    (ps.assign name a).map Prod.fst
      = if name ∈ ps.map Prod.fst then ps.map Prod.fst else ps.map Prod.fst ++ [name]
  | [] => rfl
  | (n, b) :: ps => by
    have hrest := map_fst_assign name a ps
    rw [assign]
    by_cases hn : n = name
    · rw [if_pos hn, if_pos (by rw [← hn]; exact List.mem_cons_self)]
      rfl
    · have hmem : name ∈ ((n, b) :: ps).map Prod.fst ↔ name ∈ ps.map Prod.fst :=
        ⟨fun h => (List.mem_cons.mp h).resolve_left (Ne.symm hn), List.mem_cons_of_mem _⟩
      rw [if_neg hn, List.map_cons, hrest]
      by_cases hname : name ∈ ps.map Prod.fst
      · rw [if_pos hname, if_pos (hmem.mpr hname)]
        rfl
      · rw [if_neg hname, if_neg fun h => hname (hmem.mp h)]
        rfl

theorem ofList_concat (assignments : List (Text × Assignment)) (p : Text × Assignment) :
    ofList (assignments ++ [p]) = (ofList assignments).assign p.1 p.2 := by
  rw [ofList, List.foldl_append]
  rfl

/-- Where all names are different, an assignment replaces the one to its name. -/
theorem mem_assign_of_nodup {name : Text} {a : Assignment} {p : Text × Assignment} :
    ∀ {ps : Properties}, (ps.map Prod.fst).Nodup → p ∈ ps.assign name a →
      p = (name, a) ∨ p ∈ ps ∧ p.1 ≠ name
  | [], _, h => .inl (List.mem_singleton.mp h)
  | (n, b) :: ps, hnodup, h => by
    obtain ⟨hfresh, hnodup⟩ := List.nodup_cons.mp hnodup
    rw [assign] at h
    by_cases hn : n = name
    · subst hn
      rw [if_pos rfl] at h
      rcases List.mem_cons.mp h with hp | hp
      · exact .inl hp
      · refine .inr ⟨List.mem_cons_of_mem _ hp, fun hsame => hfresh ?_⟩
        show n ∈ ps.map Prod.fst
        rw [← hsame]
        exact List.mem_map_of_mem hp
    · rw [if_neg hn] at h
      rcases List.mem_cons.mp h with rfl | hp
      · exact .inr ⟨List.mem_cons_self, hn⟩
      · rcases mem_assign_of_nodup hnodup hp with hp | ⟨hp, hne⟩
        · exact .inl hp
        · exact .inr ⟨List.mem_cons_of_mem _ hp, hne⟩

/-- **Of several assignments to one name the last one is in force, at the place of the first.** -/
theorem inForce_ofList (assignments : List (Text × Assignment)) :
    InForce assignments (ofList assignments) := by
  suffices hall : ((ofList assignments).map Prod.fst).Nodup ∧ InForce assignments (ofList assignments) from
    hall.2
  induction assignments using List.reverseRecOn with
  | nil => exact ⟨List.nodup_nil, rfl, nofun⟩
  | append_singleton assignments p ih =>
    obtain ⟨hnodup, ih⟩ := ih
    rw [ofList_concat]
    refine ⟨?_, ?_, ?_⟩
    · rw [map_fst_assign]
      split
      · exact hnodup
      · rename_i hp
        exact List.nodup_append.mpr ⟨hnodup, List.nodup_singleton _, fun n hn m hm hsame =>
          hp (List.mem_singleton.mp hm ▸ hsame ▸ hn)⟩
    · rw [map_fst_assign, ih.names, List.map_append, List.eraseDups_append]
      by_cases hp : p.1 ∈ assignments.map Prod.fst
      · rw [if_pos (List.mem_eraseDups.mpr hp)]
        simp [List.removeAll, hp]
      · rw [if_neg fun hmem => hp (List.mem_eraseDups.mp hmem)]
        simp [List.removeAll, hp, List.eraseDups_cons]
    · intro q hq
      rw [List.reverse_concat]
      rcases mem_assign_of_nodup hnodup hq with rfl | ⟨hq, hne⟩
      · exact List.lookup_cons_self
      · rw [List.lookup_cons, beq_eq_false_iff_ne.mpr hne]
        exact ih.last q hq

end Properties

/-! ## 5. What is built of a tree -/

theorem exists_of_map_ok {ε α β : Type} {x : Except ε α} {f : α → β} {b : β} (h : x.map f = .ok b) :
    ∃ a, x = .ok a ∧ f a = b := by
  cases x with
  | error e => cases h
  | ok a => exact ⟨a, rfl, Except.ok.inj h⟩

theorem denotes_of_readOperand {t : Text} {v : Value} (h : readOperand t = .ok v) :
    ∃ n, NumberPattern.Denotes t n ∧ v = .ofNumber n := by
  unfold readOperand at h
  split at h
  · rename_i n hn
    cases h
    exact ⟨n, operand?_eq_some_iff.mp hn, rfl⟩
  · cases h

theorem readOperand_of_denotes {t : Text} {n : Number} (h : NumberPattern.Denotes t n) :
    readOperand t = .ok (.ofNumber n) := by
  rw [readOperand, operand?_eq_some_iff.mpr h]

theorem exists_readOperand {t : Text} (h : NumberPattern t) : ∃ v, readOperand t = .ok v := by
  obtain ⟨n, hn⟩ := Option.isSome_iff_exists.mp ((isSome_operand?_iff t).mpr h)
  rw [readOperand, hn]
  exact ⟨_, rfl⟩

namespace ParseTree

theorem Property.means_of_build {p : Property} {a : Text × Assignment} (h : p.build = .ok a) :
    p.Means a := by
  cases p with
  | set name value =>
    cases h
    exact .set name value
  | arithmetic name operation operand =>
    obtain ⟨v, hv, rfl⟩ := exists_of_map_ok h
    obtain ⟨n, hn, rfl⟩ := denotes_of_readOperand hv
    exact .arithmetic name operation hn
  | defaulted name default operation operand =>
    rw [build] at h
    split at h
    · cases h
    · rename_i v hv
      obtain ⟨n, hn, rfl⟩ := denotes_of_readOperand hv
      obtain ⟨v, hv, rfl⟩ := exists_of_map_ok h
      obtain ⟨m, hm, rfl⟩ := denotes_of_readOperand hv
      exact .defaulted name operation hn hm

theorem means_of_buildAll : ∀ {ps : List Property} {assignments : List (Text × Assignment)},
    buildAll ps = .ok assignments → List.Forall₂ Property.Means ps assignments
  | [], _, h => by
    cases h
    exact .nil
  | p :: ps, assignments, h => by
    rw [buildAll] at h
    split at h
    · cases h
    · rename_i a ha
      obtain ⟨rest, hrest, rfl⟩ := exists_of_map_ok h
      exact .cons (p.means_of_build ha) (means_of_buildAll hrest)

theorem Entity.means_of_build {e : Entity} {e' : GraphFeed.Entity} (h : e.build = .ok e') :
    e.Means e' := by
  rw [build] at h
  obtain ⟨assignments, hassignments, rfl⟩ := exists_of_map_ok h
  refine ⟨rfl, ?_, assignments, means_of_buildAll hassignments,
    Properties.inForce_ofList assignments⟩
  cases e.key with
  | none => exact ⟨rfl, rfl⟩
  | some key =>
    cases key with
    | plain | named => exact ⟨rfl, rfl⟩

/-- **What is built of a tree is what it means.** -/
theorem means_of_build {tree : ParseTree} {i : Instruction} (h : tree.build = .ok i) :
    tree.Means i := by
  cases tree with
  | insert left =>
    rw [build] at h
    obtain ⟨left', hleft, rfl⟩ := exists_of_map_ok h
    exact .insert (left.means_of_build hleft)
  | connect left relationship right =>
    rw [build] at h
    split at h
    · cases h
    · rename_i left' hleft
      split at h
      · cases h
      · rename_i relationship' hrelationship
        obtain ⟨right', hright, rfl⟩ := exists_of_map_ok h
        exact .connect (left.means_of_build hleft) (relationship.means_of_build hrelationship)
          (right.means_of_build hright)

theorem Property.exists_build {p : Property} (h : ∀ o ∈ p.operands, NumberPattern o) :
    ∃ a, p.build = .ok a := by
  cases p with
  | set name value => exact ⟨_, rfl⟩
  | arithmetic name operation operand =>
    obtain ⟨v, hv⟩ := exists_readOperand (List.forall_mem_singleton.mp h)
    rw [build, hv]
    exact ⟨_, rfl⟩
  | defaulted name default operation operand =>
    obtain ⟨hoperand, hdefault⟩ := List.forall_mem_cons.mp h
    obtain ⟨v, hv⟩ := exists_readOperand hoperand
    obtain ⟨d, hd⟩ := exists_readOperand (List.forall_mem_singleton.mp hdefault)
    rw [build, hv]
    dsimp only
    rw [hd]
    exact ⟨_, rfl⟩

theorem exists_buildAll : ∀ {ps : List Property}, (∀ p ∈ ps, ∀ o ∈ p.operands, NumberPattern o) →
    ∃ assignments, buildAll ps = .ok assignments
  | [], _ => ⟨[], rfl⟩
  | p :: ps, h => by
    obtain ⟨hp, hps⟩ := List.forall_mem_cons.mp h
    obtain ⟨a, ha⟩ := Property.exists_build hp
    obtain ⟨rest, hrest⟩ := exists_buildAll hps
    rw [buildAll, ha]
    dsimp only
    rw [hrest]
    exact ⟨_, rfl⟩

theorem Entity.exists_build {e : Entity} (h : ∀ o ∈ e.operands, NumberPattern o) :
    ∃ e', e.build = .ok e' := by
  have hproperties : ∀ p ∈ e.properties, ∀ o ∈ p.operands, NumberPattern o := fun p hp o ho =>
    h o (List.mem_flatMap.mpr ⟨p, hp, ho⟩)
  obtain ⟨assignments, hassignments⟩ := exists_buildAll hproperties
  rw [build, hassignments]
  exact ⟨_, rfl⟩

/-- **Something is built of a tree if all its operands have the form of a decimal.** -/
theorem exists_build {tree : ParseTree} (h : ∀ o ∈ tree.operands, NumberPattern o) :
    ∃ i, tree.build = .ok i := by
  cases tree with
  | insert left =>
    obtain ⟨left', hleft⟩ := Entity.exists_build h
    rw [build, hleft]
    exact ⟨_, rfl⟩
  | connect left relationship right =>
    obtain ⟨hl, hmore⟩ := List.forall_mem_append.mp h
    obtain ⟨hm, hr⟩ := List.forall_mem_append.mp hmore
    obtain ⟨left', hleft⟩ := Entity.exists_build hl
    obtain ⟨relationship', hrelationship⟩ := Entity.exists_build hm
    obtain ⟨right', hright⟩ := Entity.exists_build hr
    rw [build, hleft]
    dsimp only
    rw [hrelationship]
    dsimp only
    rw [hright]
    exact ⟨_, rfl⟩

end ParseTree

end GraphFeed
