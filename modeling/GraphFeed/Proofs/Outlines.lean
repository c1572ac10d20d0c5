import GraphFeed.Proofs.StatementReading

/-!
# What a query depends on

No value stands in a query, and none decides on its clauses. Two instructions of the same outline, that
is, with the same names and operators and with ids in the same places, make the same query and have
parameters of the same names, whatever their ids, values and defaults are (`query_of_outline`).

* `Entity.SameOutline`, `Instruction.SameOutline`: what the instructions agree on. Of an id it matters
  whether it is there and whether it is blank;
* `Draft.SameOutline`: the drafts have the same clauses and parameters. So it is with assignments,
  one by one (`assignments_outline`), and therefore with nodes, the relationship and the instruction.
-/

namespace GraphFeed

/-! ## 1. Outlines -/

/-- The names of properties, with the operators by which they are assigned to. -/
def Properties.operators (ps : Properties) : List (Text × Operator) :=
  ps.map fun p => (p.1, p.2.operator)

/-- The entities differ at most in their ids and values. -/
structure Entity.SameOutline (e e' : Entity) : Prop where
  name : e'.name = e.name
  mergeOn : e'.mergeOn = e.mergeOn
  /-- Both ids are absent, both are blank, or both are neither. -/
  id : e'.id.map List.isEmpty = e.id.map List.isEmpty
  properties : e'.properties.operators = e.properties.operators

/-- The instructions are of the same type, and their entities differ at most in their ids and
    values. -/
inductive Instruction.SameOutline : Instruction → Instruction → Prop
  | insert {left left' : Entity} (hleft : left.SameOutline left') :
      SameOutline (.insert left) (.insert left')
  | connect {left left' between between' right right' : Entity} (hleft : left.SameOutline left')
      (hbetween : between.SameOutline between') (hright : right.SameOutline right') :
      SameOutline (.connect left between right) (.connect left' between' right')

/-- The drafts differ at most in their values. -/
structure Draft.SameOutline (d d' : Draft) : Prop where
  clauses : d'.clauses = d.clauses
  parameters : d'.parameters = d.parameters

/-! ## 2. Entities -/

namespace Entity.SameOutline

variable {e e' : Entity} (h : e.SameOutline e')

include h

/-- Either both have an id that is not blank, or none. -/
theorem id?_isSome : e'.id?.isSome = e.id?.isSome := by
  obtain ⟨-, -, hid, -⟩ := h
  unfold Entity.id?
  cases hother : e'.id with
  | none =>
    cases hown : e.id with
    | none => rfl
    | some own => rw [hother, hown] at hid; cases hid
  | some other =>
    cases hown : e.id with
    | none => rw [hother, hown] at hid; cases hid
    | some own =>
      rw [hother, hown] at hid
      have hempty : other.isEmpty = own.isEmpty := Option.some.inj hid
      rw [Option.filter_some, Option.filter_some, hempty]
      cases own.isEmpty <;> rfl

/-- Either both have a blank id, or none. -/
theorem hasBlankId : e'.hasBlankId = e.hasBlankId := by
  have hblank : ∀ f : Entity, f.hasBlankId = decide (f.id.map List.isEmpty = some true) := by
    intro f
    refine decide_eq_decide.mpr ?_
    rw [Option.map_eq_some_iff]
    simp only [List.isEmpty_iff, exists_eq_right]
  rw [hblank, hblank, h.id]

end Entity.SameOutline

/-- What is chosen by its operator is chosen alike. -/
theorem Properties.operators_filter {ps ps' : Properties} (h : ps'.operators = ps.operators)
    (chosen : Operator → Bool) : operators (ps'.filter fun p => chosen p.2.operator)
      = operators (ps.filter fun p => chosen p.2.operator) := by
  have hfilter : ∀ qs : Properties, operators (qs.filter fun p => chosen p.2.operator)
      = qs.operators.filter fun q => chosen q.2 := fun qs => by
    rw [operators, operators, List.filter_map]
    rfl
  rw [hfilter, hfilter, h]

theorem Properties.map_fst_operators (ps : Properties) :
    (operators ps).map Prod.fst = ps.map Prod.fst := List.map_map

/-! ## 3. Drafts -/

namespace Draft

variable {owner : Alias}

theorem SameOutline.refl (d : Draft) : d.SameOutline d := ⟨rfl, rfl⟩

theorem SameOutline.append {a a' b b' : Draft} (h : a.SameOutline a') (hb : b.SameOutline b') :
    (a ++ b).SameOutline (a' ++ b') where
  clauses := by rw [clauses_append, clauses_append, h.clauses, hb.clauses]
  parameters := by rw [parameters_append, parameters_append, h.parameters, hb.parameters]

/-- **Assignments have the same clauses and parameters if they name the same properties by the same
    operators.** -/
theorem assignments_outline : ∀ {ps ps' : Properties} (n : Nat), ps'.operators = ps.operators →
    (assignments owner n ps).SameOutline (assignments owner n ps')
  | [], [], _, _ => .refl _
  | [], _ :: _, _, h => nomatch h
  | _ :: _, [], _, h => nomatch h
  | (name, a) :: ps, (name', a') :: ps', n, h => by
    obtain ⟨hhead, hrest⟩ := List.cons.inj h
    obtain ⟨hname, hoperator⟩ := Prod.mk.inj hhead
    have hafter := assignments_outline (n + 1) hrest
    dsimp only at hname hoperator
    subst hname
    cases a with
    | set value =>
      cases a' with
      | set value' => exact SameOutline.append ⟨rfl, rfl⟩ hafter
      | update => cases hoperator
    | update operation value default =>
      cases a' with
      | set => cases hoperator
      | update operation' value' default' =>
        cases hoperator
        exact SameOutline.append ⟨rfl, rfl⟩ hafter

/-- The properties that a node is merged on. -/
theorem keys_outline (label : Text) {ps ps' : Properties} (h : ps'.operators = ps.operators) :
    SameOutline
      ⟨[.mergeNode owner label ((keys ps).map (·.1))],
        (keys ps).map fun key => (⟨owner, key.1.2⟩, key.2)⟩
      ⟨[.mergeNode owner label ((keys ps').map (·.1))],
        (keys ps').map fun key => (⟨owner, key.1.2⟩, key.2)⟩ := by
  have hset : (ps'.filter fun p => !p.2.isArithmetic).map Prod.fst
      = (ps.filter fun p => !p.2.isArithmetic).map Prod.fst := by
    rw [← Properties.map_fst_operators, ← Properties.map_fst_operators]
    exact congrArg (List.map Prod.fst) (Properties.operators_filter h fun o => !o.isArithmetic)
  constructor
  · show [Clause.mergeNode owner label _] = [Clause.mergeNode owner label _]
    rw [← Query.keySlots_keys, ← Query.keySlots_keys, hset]
  · have hcount := congrArg List.length hset
    rw [List.length_map, List.length_map] at hcount
    show List.map Prod.fst _ = List.map Prod.fst _
    rw [List.map_map, List.map_map]
    exact (parameters_keys ps').trans (hcount ▸ (parameters_keys ps).symm)

variable {e e' : Entity}

theorem node_outline (h : e.SameOutline e') : (node owner e).SameOutline (node owner e') := by
  have hgiven := h.id?_isSome
  unfold node
  rw [h.name, h.mergeOn]
  cases hown : e.id? with
  | some own =>
    rw [hown] at hgiven
    obtain ⟨other, hother⟩ := Option.isSome_iff_exists.mp hgiven
    rw [hother]
    exact SameOutline.append ⟨rfl, rfl⟩ (assignments_outline 0 h.properties)
  | none =>
    rw [hown] at hgiven
    have hother : e'.id? = none := Option.isNone_iff_eq_none.mp (Option.isSome_eq_false_iff.mp hgiven)
    have hupdates : Properties.operators (e'.properties.filter fun p => p.2.isArithmetic)
        = Properties.operators (e.properties.filter fun p => p.2.isArithmetic) :=
      Properties.operators_filter h.properties Operator.isArithmetic
    rw [hother]
    exact (keys_outline e.name h.properties).append (assignments_outline 0 hupdates)

theorem relationship_outline (h : e.SameOutline e') :
    (relationship e).SameOutline (relationship e') := by
  have hgiven := h.id?_isSome
  unfold relationship
  rw [h.name, h.mergeOn]
  refine SameOutline.append (SameOutline.append (.refl _) ?_) (assignments_outline 0 h.properties)
  cases hown : e.id? with
  | some own =>
    rw [hown] at hgiven
    obtain ⟨other, hother⟩ := Option.isSome_iff_exists.mp hgiven
    rw [hother]
    exact ⟨rfl, rfl⟩
  | none =>
    rw [hown] at hgiven
    rw [Option.isNone_iff_eq_none.mp (Option.isSome_eq_false_iff.mp hgiven)]
    exact .refl _

/-- **Instructions of the same outline have drafts that differ at most in their values.** -/
theorem ofInstruction_outline {i i' : Instruction} (h : i.SameOutline i') :
    (ofInstruction i).SameOutline (ofInstruction i') := by
  cases h with
  | insert hleft => exact (node_outline hleft).append (.refl _)
  | connect hleft hbetween hright =>
    exact (((node_outline hleft).append (node_outline hright)).append
      (relationship_outline hbetween)).append (.refl _)

end Draft

/-! ## 4. Statements -/

/-- Instructions of the same outline are passed over together. -/
theorem Instruction.isSkipped_outline {i i' : Instruction} (h : i.SameOutline i')
    (keepBlank : Bool) : i'.isSkipped keepBlank = i.isSkipped keepBlank := by
  unfold isSkipped
  cases h with
  | insert hleft => simp only [nodes, List.any_cons, List.any_nil, hleft.hasBlankId]
  | connect hleft _ hright =>
    simp only [nodes, List.any_cons, List.any_nil, hleft.hasBlankId, hright.hasBlankId]

/-- **Values do not influence the query.** Of two instructions of the same outline, either both are
    passed over, or both make a statement; the queries are the same then, and the parameters have the
    same names in the same order. -/
theorem query_of_outline (keepBlank : Bool) {i i' : Instruction} (h : i.SameOutline i') :
    (Statement.ofInstruction keepBlank i').map (fun s => (s.query, s.parameters.map Prod.fst))
      = (Statement.ofInstruction keepBlank i).map
        fun s => (s.query, s.parameters.map Prod.fst) := by
  obtain ⟨hclauses, hparameters⟩ := Draft.ofInstruction_outline h
  have hnames : ∀ d : Draft,
      d.statement.parameters.map Prod.fst = d.parameters.map Parameter.text := by
    intro d
    rw [Draft.parameters, List.map_map]
    exact List.map_map
  unfold Statement.ofInstruction
  rw [Instruction.isSkipped_outline h]
  split
  · rfl
  · rw [Option.map_some, Option.map_some, hnames, hnames, hparameters]
    exact congrArg (fun clauses => some (Text.join "\n" (clauses.map Clause.text), _)) hclauses

/-- A node with another id, and one without id that is merged on another value. -/
theorem query_of_outline_hostile :
    let i : Instruction := .connect ⟨"Dog", "id", some "1", [("age", .update .add (.int 1) (.int 0))]⟩
      ⟨"OWNS", "id", none, []⟩ ⟨"Cat", "id", none, [("name", .set (.text "Tom"))]⟩
    let i' : Instruction := .connect
      ⟨"Dog", "id", some "x\x60) DETACH DELETE a", [("age", .update .add (.int (-7)) .null)]⟩
      ⟨"OWNS", "id", none, []⟩ ⟨"Cat", "id", none, [("name", .set (.text "$a_id\nRETURN 1"))]⟩
    i.SameOutline i' ∧ (Statement.ofInstruction false i).isSome = true ∧
      (Statement.ofInstruction false i').map (fun s => (s.query, s.parameters.map Prod.fst))
        = (Statement.ofInstruction false i).map
          fun s => (s.query, s.parameters.map Prod.fst) := by
  intro i i'
  have h : i.SameOutline i' := .connect ⟨rfl, rfl, rfl, rfl⟩ ⟨rfl, rfl, rfl, rfl⟩ ⟨rfl, rfl, rfl, rfl⟩
  exact ⟨h, rfl, query_of_outline false h⟩

end GraphFeed
