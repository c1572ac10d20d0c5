import GraphFeed.Instruction.Reading
import GraphFeed.Proofs.Escapes
import GraphFeed.Proofs.NumberPattern

/-!
# Ways to write an instruction

An instruction can be written in many ways. A `Spelling` is an instruction together with one of
them: for each text whether it is bare or between marks, and which escapes stand for what
(`Spelling.Word`); for each place where blanks may stand which ones do (`Spelling.Gap`); whether
the property that holds the id is named where it is the default one (`Spelling.Key`), and whether
the default of an update is (`Spelling.Property`). `Spelling.text` prints it so, and
`Spelling.instruction` is what is printed.

The instructions that have a spelling are those the updates of which are by numbers, with no property
assigned twice in an entity, and with the default property for an id that is not there
(`Instruction.writable_iff`).
-/

namespace GraphFeed

namespace Spelling

/-! ## 1. Words and blanks -/

/-- A text as it is written. A bare one is not empty and has no comma in it. -/
inductive Word
  | bare (run : Text) (hne : run ≠ []) (hrun : ∀ c ∈ run, Lexeme.isBare c = true ∧ c ≠ ',')
  | quoted (mark : CodePoint) (value inside : Text) (hmark : Lexeme.isMark mark = true)
      (h : Escaped mark value inside)

/-- The text that is written. -/
def Word.value : Word → Text
  | .bare run .. => run
  | .quoted _ value .. => value

/-- The word as it is written. -/
def Word.text : Word → Text
  | .bare run .. => run
  | .quoted mark _ inside .. => .concat [[mark], inside, [mark]]

theorem exists_word (t : Text) : ∃ w : Word, w.value = t := by
  have hmark : Lexeme.isMark '"' = true := by decide
  obtain ⟨inside, h⟩ := exists_escaped hmark t
  exact ⟨.quoted _ t inside hmark h, rfl⟩

/-- A number as it is written. -/
structure Numeral where
  word : Word
  number : Number
  denotes : NumberPattern.Denotes word.value number

/-- A run of blanks, or nothing. -/
structure Gap where
  text : Text
  blank : ∀ c ∈ text, Lexeme.isBlank c = true

/-- No blank at all. -/
def Gap.none : Gap := ⟨[], nofun⟩

/-- A run of blanks that is not empty. -/
structure Space extends Gap where
  ne_nil : text ≠ []

/-- A single blank. -/
def Space.one : Space := ⟨⟨" ", by decide⟩, by decide⟩

/-! ## 2. Properties -/

/-- An assignment as it is written. -/
inductive Property
  | set (name : Word) (before after : Gap) (value : Word)
  | update (name : Word) (before : Gap) (operation : Arithmetic) (after : Gap) (operand : Numeral)
  | defaulted (name : Word) (before opening : Gap) (default : Numeral) (closing between : Gap)
      (operation : Arithmetic) (after : Gap) (operand : Numeral)

namespace Property

/-- The word for the name of the property. -/
def name : Property → Word
  | .set name .. | .update name .. | .defaulted name .. => name

/-- What is done to the property. -/
def assignment : Property → Assignment
  | .set _ _ _ value => .set value.value
  | .update _ _ operation _ operand =>
    .update operation (.ofNumber operand.number) Assignment.noDefault
  | .defaulted _ _ _ default _ _ operation _ operand =>
    .update operation (.ofNumber operand.number) (.ofNumber default.number)

/-- The assignment as it is written. -/
def text : Property → Text
  | .set name before after value =>
    .concat [name.text, before.text, ":", after.text, value.text]
  | .update name before operation after operand =>
    .concat [name.text, before.text, [operation.sign], "=", after.text, operand.word.text]
  | .defaulted name before opening default closing between operation after operand =>
    .concat [name.text, before.text, "(", opening.text, default.word.text, closing.text, ")",
      between.text, [operation.sign], "=", after.text, operand.word.text]

end Property

/-- A list of properties as it is written. Blanks may stand on both sides of a comma. -/
structure PropertyList where
  before : Gap
  opening : Gap
  first : Property
  more : List (Gap × Gap × Property)
  closing : Gap
  nodup : ((first :: more.map fun x => x.2.2).map fun p => p.name.value).Nodup

namespace PropertyList

/-- The assignments that are written. -/
def properties (l : PropertyList) : Properties :=
  (l.first :: l.more.map fun x => x.2.2).map fun p => (p.name.value, p.assignment)

/-- The properties from the second on as they are written. -/
def moreText : List (Gap × Gap × Property) → Text
  | [] => []
  | (before, after, p) :: more => .concat [before.text, ",", after.text, p.text, moreText more]

/-- The list as it is written. -/
def text (l : PropertyList) : Text :=
  .concat [l.before.text, "(", l.opening.text, l.first.text, moreText l.more, l.closing.text, ")"]

end PropertyList

/-! ## 3. Entities and instructions -/

/-- An id as it is written, with the property that holds it or without. -/
inductive Key
  | plain (before after : Gap) (value : Word)
  | named (before after : Gap) (holder value : Word)

namespace Key

/-- The property that holds the id. -/
def mergeOn : Key → Text
  | .plain .. => GraphFeed.Entity.defaultMergeOn
  | .named _ _ holder _ => holder.value

/-- The id. -/
def id : Key → Text
  | .plain _ _ value | .named _ _ _ value => value.value

/-- The id as it is written. -/
def text : Key → Text
  | .plain before after value => .concat [before.text, ":", after.text, value.text]
  | .named before after holder value =>
    .concat [before.text, ":", after.text, holder.text, "=", value.text]

end Key

/-- An entity as it is written. -/
structure Entity where
  name : Word
  key : Option Key
  list : Option PropertyList

namespace Entity

/-- The entity that is written. -/
def entity (e : Entity) : GraphFeed.Entity where
  name := e.name.value
  mergeOn := (e.key.map Key.mergeOn).getD GraphFeed.Entity.defaultMergeOn
  id := e.key.map Key.id
  properties := (e.list.map PropertyList.properties).getD []

/-- The entity as it is written. -/
def text (e : Entity) : Text :=
  .concat [e.name.text, (e.key.map Key.text).getD [], (e.list.map PropertyList.text).getD []]

end Entity

end Spelling

/-- An instruction as it is written. -/
inductive Spelling
  | insert (left : Spelling.Entity)
  | connect (left : Spelling.Entity) (before : Spelling.Space) (relationship : Spelling.Entity)
      (after : Spelling.Space) (right : Spelling.Entity)

namespace Spelling

/-- The instruction that is written. -/
def instruction : Spelling → Instruction
  | .insert left => .insert left.entity
  | .connect left _ relationship _ right =>
    .connect left.entity relationship.entity right.entity

/-- The instruction as it is written. -/
def text : Spelling → Text
  | .insert left => left.text
  | .connect left before relationship after right =>
    .concat [left.text, before.text, relationship.text, after.text, right.text]

/-- A hyphen behind a bare name, and one before a bare operand. -/
example :
    let name : Word := .bare "hits" (by decide) (by decide)
    let operand : Numeral := ⟨.bare "-5" (by decide) (by decide), .int (-5), operand?_eq_some_iff.mp (by decide)⟩
    let list : PropertyList :=
      ⟨.none, .none, .update name .none .subtract .none operand, [], .none, by decide⟩
    let s : Spelling := .insert ⟨.bare "Dog" (by decide) (by decide), none, some list⟩
    s.text = "Dog(hits-=-5)" := by
  decide

end Spelling

/-! ## 4. What can be written -/

/-- The value is one that an update can have. -/
def Value.IsOperand (v : Value) : Prop := ∃ t n, NumberPattern.Denotes t n ∧ v = .ofNumber n

/-- The assignment can be written. -/
def Assignment.Writable : Assignment → Prop
  | .set value => ∃ t, value = .text t
  | .update _ value default =>
    value.IsOperand ∧ (default = Assignment.noDefault ∨ default.IsOperand)

/-- The entity can be written. -/
structure Entity.Writable (e : Entity) : Prop where
  mergeOn : e.id = none → e.mergeOn = Entity.defaultMergeOn
  nodup : (e.properties.map Prod.fst).Nodup
  assignments : ∀ p ∈ e.properties, p.2.Writable

/-- The instruction can be written. -/
def Instruction.Writable (i : Instruction) : Prop := ∀ e ∈ i.entities, e.Writable

namespace Spelling

theorem Property.writable (p : Property) : p.assignment.Writable := by
  have hoperand : ∀ numeral : Numeral, Value.IsOperand (.ofNumber numeral.number) :=
    fun numeral => ⟨_, _, numeral.denotes, rfl⟩
  cases p with
  | set name before after value => exact ⟨_, rfl⟩
  | update name before operation after operand => exact ⟨hoperand _, .inl rfl⟩
  | defaulted name before opening default closing between operation after operand =>
    exact ⟨hoperand _, .inr (hoperand _)⟩

theorem Entity.writable (e : Spelling.Entity) : e.entity.Writable := by
  refine ⟨fun hid => ?_, ?_, ?_⟩
  · have hkey : e.key = none := Option.map_eq_none_iff.mp hid
    rw [Entity.entity, hkey]
    rfl
  · unfold Entity.entity
    cases e.list with
    | none => exact List.nodup_nil
    | some list =>
      have hnodup := list.nodup
      show (list.properties.map Prod.fst).Nodup
      rw [PropertyList.properties, List.map_map]
      exact hnodup
  · unfold Entity.entity
    cases e.list with
    | none => exact nofun
    | some list =>
      intro p hp
      obtain ⟨property, _, rfl⟩ := List.mem_map.mp hp
      exact property.writable

theorem exists_numeral {v : Value} (h : v.IsOperand) :
    ∃ numeral : Numeral, v = .ofNumber numeral.number := by
  obtain ⟨t, n, hdenotes, hv⟩ := h
  obtain ⟨word, hword⟩ := exists_word t
  exact ⟨⟨word, n, hword ▸ hdenotes⟩, hv⟩

theorem exists_property (name : Text) {a : Assignment} (h : a.Writable) :
    ∃ p : Property, p.name.value = name ∧ p.assignment = a := by
  obtain ⟨word, hword⟩ := exists_word name
  cases a with
  | set value =>
    obtain ⟨t, rfl⟩ := h
    obtain ⟨written, rfl⟩ := exists_word t
    exact ⟨.set word .none .none written, hword, rfl⟩
  | update operation value default =>
    obtain ⟨hvalue, hdefault⟩ := h
    obtain ⟨operand, rfl⟩ := exists_numeral hvalue
    rcases hdefault with rfl | hdefault
    · exact ⟨.update word .none operation .none operand, hword, rfl⟩
    · obtain ⟨numeral, rfl⟩ := exists_numeral hdefault
      exact ⟨.defaulted word .none .none numeral .none .none operation .none operand, hword, rfl⟩

theorem exists_properties : ∀ {ps : Properties}, (∀ p ∈ ps, p.2.Writable) →
    ∃ spelled : List Property, spelled.map (fun p => (p.name.value, p.assignment)) = ps
  | [], _ => ⟨[], rfl⟩
  | (name, a) :: ps, h => by
    obtain ⟨ha, hrest⟩ := List.forall_mem_cons.mp h
    obtain ⟨p, hname, hassignment⟩ := exists_property name ha
    obtain ⟨spelled, hspelled⟩ := exists_properties hrest
    refine ⟨p :: spelled, ?_⟩
    rw [List.map_cons, hspelled, hname, hassignment]

theorem exists_list {ps : Properties} (hnodup : (ps.map Prod.fst).Nodup)
    (h : ∀ p ∈ ps, p.2.Writable) :
    ∃ list : Option PropertyList, (list.map PropertyList.properties).getD [] = ps := by
  obtain ⟨spelled, rfl⟩ := exists_properties h
  cases spelled with
  | nil => exact ⟨none, rfl⟩
  | cons first more =>
    have hmore : (more.map fun p => (Gap.none, Gap.none, p)).map (fun x => x.2.2) = more := by
      rw [List.map_map]
      exact List.map_id more
    rw [List.map_map] at hnodup
    refine ⟨some ⟨.none, .none, first, more.map fun p => (.none, .none, p), .none, ?_⟩, ?_⟩
    · rw [hmore]
      exact hnodup
    · exact congrArg (fun more => (first :: more).map fun p => (p.name.value, p.assignment)) hmore

theorem exists_entity {e : GraphFeed.Entity} (h : e.Writable) :
    ∃ spelled : Spelling.Entity, spelled.entity = e := by
  obtain ⟨name, mergeOn, id, properties⟩ := e
  obtain ⟨word, hword⟩ := exists_word name
  obtain ⟨list, hlist⟩ := exists_list h.nodup h.assignments
  have hkey : ∃ key : Option Key, (key.map Key.mergeOn).getD GraphFeed.Entity.defaultMergeOn = mergeOn
      ∧ key.map Key.id = id := by
    cases id with
    | none => exact ⟨none, (h.mergeOn rfl).symm, rfl⟩
    | some id =>
      obtain ⟨holder, hholder⟩ := exists_word mergeOn
      obtain ⟨value, hvalue⟩ := exists_word id
      exact ⟨some (.named .none .none holder value), hholder, congrArg some hvalue⟩
  obtain ⟨key, hmergeOn, hid⟩ := hkey
  refine ⟨⟨word, key, list⟩, ?_⟩
  rw [Entity.entity, hword, hmergeOn, hid, hlist]

end Spelling

/-- **The instructions that can be written are those that have a spelling.** -/
theorem Instruction.writable_iff (i : Instruction) :
    i.Writable ↔ ∃ s : Spelling, s.instruction = i := by
  constructor
  · intro h
    cases i with
    | insert left =>
      obtain ⟨spelled, rfl⟩ := Spelling.exists_entity (h left (List.mem_singleton_self left))
      exact ⟨.insert spelled, rfl⟩
    | connect left relationship right =>
      obtain ⟨hleft, hrest⟩ := List.forall_mem_cons.mp h
      obtain ⟨hrelationship, hrest⟩ := List.forall_mem_cons.mp hrest
      obtain ⟨hright, _⟩ := List.forall_mem_cons.mp hrest
      obtain ⟨left, rfl⟩ := Spelling.exists_entity hleft
      obtain ⟨relationship, rfl⟩ := Spelling.exists_entity hrelationship
      obtain ⟨right, rfl⟩ := Spelling.exists_entity hright
      exact ⟨.connect left .one relationship .one right, rfl⟩
  · rintro ⟨s, rfl⟩
    have hwritten : ∀ e ∈ s.instruction.entities, ∃ spelled : Spelling.Entity, e = spelled.entity := by
      cases s with
      | insert left =>
        intro e he
        exact ⟨left, List.mem_singleton.mp he⟩
      | connect left before relationship after right =>
        intro e he
        rcases List.mem_cons.mp he with rfl | he
        · exact ⟨left, rfl⟩
        · rcases List.mem_cons.mp he with rfl | he
          · exact ⟨relationship, rfl⟩
          · exact ⟨right, List.mem_singleton.mp he⟩
    intro e he
    obtain ⟨spelled, rfl⟩ := hwritten e he
    exact spelled.writable

end GraphFeed
