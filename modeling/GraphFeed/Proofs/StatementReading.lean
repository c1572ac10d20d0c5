import GraphFeed.Proofs.QueryText
import GraphFeed.Statement.Basic

/-!
# Reading a statement back

A statement says what its instruction says, whatever stands in the names. `Statement.read?` reads the
lines of the query one clause after the other: the names of a line say which clause it can be, and the
line is taken if it is the line of that clause. Values are looked up by the names of the parameters.

* An entity's assignments are read up to the first line that does not begin as one of them
  (`Query.readAssignments_clauses`), a node up to there (`Query.readNode_clauses`), and the
  relationship likewise (`Query.readEdge_clauses`).
* The values of a draft belong to parameters that are all different (`Draft.nodup_ofInstruction`), so
  that each is found by the name of its own (`lookup_of_mem`).
* The clauses refer to these parameters (`Draft.balanced_ofInstruction`).
* An instruction with other names makes the same clauses with other names
  (`Draft.ofInstruction_renamed`).

`statement_read_back` puts these together.
-/

namespace GraphFeed

open Query (Line)

/-! ## 1. What a statement says -/

/-- How a statement finds its node, and what it assigns to it. -/
inductive Identity
  /-- By the property that holds the id. -/
  | byId (mergeOn id : Text) (assignments : Properties)
  /-- By the properties it sets; updates follow. -/
  | byProperties (keys : List (Text × Value)) (updates : Properties)

/-- What a statement says of a node. -/
structure NodeReading where
  label : Text
  identity : Identity

/-- What a statement says of a relationship: its type, the property that holds its id with the id,
    and what is assigned to it. -/
structure EdgeReading where
  type : Text
  id : Option (Text × Text)
  assignments : Properties

/-- What a statement says. -/
inductive Reading
  | insert (node : NodeReading)
  | connect (left : NodeReading) (between : EdgeReading) (right : NodeReading)

/-- What is to be said of a node. -/
def NodeReading.ofEntity (e : Entity) : NodeReading where
  label := e.name
  identity := match e.id? with
    | some id => .byId e.mergeOn id e.properties
    | none => .byProperties
      ((e.properties.filter fun p => !p.2.isArithmetic).map fun p => (p.1, p.2.value))
      (e.properties.filter fun p => p.2.isArithmetic)

/-- What is to be said of a relationship. -/
def EdgeReading.ofEntity (e : Entity) : EdgeReading where
  type := e.name
  id := e.id?.map fun id => (e.mergeOn, id)
  assignments := e.properties

/-- What is to be said of an instruction. -/
def Reading.ofInstruction : Instruction → Reading
  | .insert left => .insert (.ofEntity left)
  | .connect left between right => .connect (.ofEntity left) (.ofEntity between) (.ofEntity right)

/-! ## 2. The reader -/

namespace Query

section Reader

variable (values : Parameter → Option Value)

/-- Reads a line as the n-th assignment of an entity. -/
def readAssignment (owner : Alias) (n : Nat) (l : Line) : Option (Text × Assignment) :=
  match l.names with
  | [name] =>
    if l = (Clause.set owner name (.value n)).line then
      (values ⟨owner, .value n⟩).map fun value => (name, .set value)
    else none
  | [name, _] =>
    (Arithmetic.all.find? fun a => l = (Clause.update owner name a (.value n) (.default n)).line).bind
      fun a => (values ⟨owner, .value n⟩).bind fun value =>
        (values ⟨owner, .default n⟩).map fun default => (name, .update a value default)
  | _ => none

/-- Reads assignments of an entity from number `n` on: the assignments, and the lines left. -/
def readAssignments (owner : Alias) (n : Nat) : List Line → Properties × List Line
  | [] => ([], [])
  | l :: rest =>
    match readAssignment values owner n l with
    | some a =>
      let (as, left) := readAssignments owner (n + 1) rest
      (a :: as, left)
    | none => ([], l :: rest)

/-- The names with the slots of keys. -/
def keySlots (names : List Text) : List (Text × Slot) :=
  names.zipIdx.map fun (name, n) => (name, .key n)

/-- The values of the properties that a node is merged on, from number `n` on. -/
def readKeys (owner : Alias) (n : Nat) : List Text → Option (List (Text × Value))
  | [] => some []
  | name :: names =>
    (values ⟨owner, .key n⟩).bind fun value =>
      (readKeys owner (n + 1) names).map fun keys => (name, value) :: keys

/-- The value of a parameter that is a text. -/
def readText (p : Parameter) : Option Text :=
  match values p with
  | some (.text t) => some t
  | _ => none

/-- Reads the clauses of a node: what they say, and the lines left. -/
def readNode (owner : Alias) : List Line → Option (NodeReading × List Line)
  | [] => none
  | l :: rest =>
    let (assignments, left) := readAssignments values owner 0 rest
    match l.names with
    | [] => none
    | label :: names =>
      let mergeOn := names.headD []
      if l = (Clause.mergeNode owner label [(mergeOn, .id)]).line then
        (readText values ⟨owner, .id⟩).map fun id => (⟨label, .byId mergeOn id assignments⟩, left)
      else if l = (Clause.mergeNode owner label (keySlots names)).line then
        (readKeys values owner 0 names).map fun keys =>
          (⟨label, .byProperties keys assignments⟩, left)
      else none

/-- Reads the clause that sets the id of the relationship, if there is one. -/
def readEdgeId : List Line → Option (Text × Text) × List Line
  | [] => (none, [])
  | l :: rest =>
    let mergeOn := l.names.headD []
    if l = (Clause.set .relationship mergeOn .id).line then
      ((readText values ⟨.relationship, .id⟩).map fun id => (mergeOn, id), rest)
    else (none, l :: rest)

/-- Reads the clauses of the relationship. -/
def readEdge : List Line → Option (EdgeReading × List Line)
  | [] => none
  | l :: rest =>
    let type := l.names.headD []
    let (id, between) := readEdgeId values rest
    let (assignments, left) := readAssignments values .relationship 0 between
    if l = (Clause.mergeRelationship type).line then some (⟨type, id, assignments⟩, left) else none

/-- Reads the lines of a query. -/
def readLines (ls : List Line) : Option Reading :=
  (readNode values .first ls).bind fun (left, rest) =>
    if rest = [(Clause.returning [.first]).line] then some (.insert left)
    else (readNode values .second rest).bind fun (right, rest) =>
      (readEdge values rest).bind fun (between, rest) =>
        if rest = [(Clause.returning [.first, .second, .relationship]).line] then
          some (.connect left between right)
        else none

end Reader

end Query

/-- **Reads a statement back**: its query line by line, and the values of its parameters by their
    names. -/
def Statement.read? (s : Statement) : Option Reading :=
  (Query.lines? s.query).bind (Query.readLines fun p => s.parameters.lookup p.text)

/-! ## 3. Lines of clauses -/

namespace Clause

/-- Clauses with the same line refer to the same parameters. -/
theorem parameters_of_line {c c' : Clause} (h : c.line = c'.line) :
    c.parameters = c'.parameters := by
  have hreferences := congrArg Line.references h
  rw [references_line, references_line] at hreferences
  exact (List.map_inj_right fun _ _ => Parameter.text_inj).mp hreferences

theorem lead_mergeNode (owner : Alias) (label : Text) (keys : List (Text × Slot)) :
    (mergeNode owner label keys).line.lead = mergeLead owner := by
  cases keys <;> rfl

theorem names_mergeNode (owner : Alias) (label : Text) (keys : List (Text × Slot)) :
    (mergeNode owner label keys).line.names = label :: keys.map Prod.fst := by
  have hparts : ∀ keys, (keyParts owner keys).map Prod.fst = keys.map Prod.fst := by
    intro keys
    induction keys with
    | nil => rfl
    | cons key keys ih => rw [keyParts, List.map_cons, List.map_cons, ih]
  cases keys with
  | nil => rfl
  | cons key keys => exact congrArg (List.cons label) (hparts (key :: keys))

/-- Updates with the same line are the same operation. -/
theorem operation_of_line {owner : Alias} {name : Text} {slot default : Slot} {a a' : Arithmetic}
    (h : (update owner name a slot default).line = (update owner name a' slot default).line) :
    a = a' := by
  have htail := congrArg (fun l : Line => l.parts.getLast?.map Prod.snd) h
  have hconcat := Option.some.inj htail
  simp only [Text.concat, List.flatten_cons, List.flatten_nil, List.append_nil] at hconcat
  have hsign := List.append_cancel_right (List.append_cancel_left (List.append_cancel_left hconcat))
  have hsame : a.sign = a'.sign := (List.cons.inj (List.append_cancel_left hsign)).1
  have hread := congrArg Arithmetic.ofSign? hsame
  rw [Arithmetic.ofSign?_sign, Arithmetic.ofSign?_sign] at hread
  exact Option.some.inj hread

end Clause

/-! ## 4. Drafts are read back -/

theorem Draft.clauses_append (d d' : Draft) : (d ++ d').clauses = d.clauses ++ d'.clauses := rfl

/-- Every instruction has a clause: what it returns. -/
theorem Draft.clauses_ne_nil (i : Instruction) : (ofInstruction i).clauses ≠ [] := by
  cases i with
  | insert left => exact List.append_ne_nil_of_right_ne_nil _ (List.cons_ne_nil _ _)
  | connect left between right => exact List.append_ne_nil_of_right_ne_nil _ (List.cons_ne_nil _ _)

namespace Query

variable {values : Parameter → Option Value} {owner : Alias} {l : Line} {after : List Line}

/-- The values are those of a draft. -/
def Holds (values : Parameter → Option Value) (d : Draft) : Prop :=
  ∀ v ∈ d.values, values v.1 = some v.2

theorem Holds.left {d d' : Draft} (h : Holds values (d ++ d')) : Holds values d :=
  fun v hv => h v (List.mem_append_left _ hv)

theorem Holds.right {d d' : Draft} (h : Holds values (d ++ d')) : Holds values d' :=
  fun v hv => h v (List.mem_append_right _ hv)

/-- A line that does not begin as an assignment of the entity is none. -/
theorem readAssignment_of_lead (h : l.lead ≠ Clause.setLead owner) (n : Nat) :
    readAssignment values owner n l = none := by
  have hset : ∀ name slot, l ≠ (Clause.set owner name slot).line := by
    rintro name slot rfl
    exact h rfl
  have hupdate : ∀ name a slot default, l ≠ (Clause.update owner name a slot default).line := by
    rintro name a slot default rfl
    exact h rfl
  unfold readAssignment
  split
  · rw [if_neg (hset _ _)]
  · rename_i name _ _
    rw [List.find?_eq_none.mpr fun a _ => by simpa using hupdate name a _ _]
    rfl
  · rfl

/-- **Assignments are read back.** -/
theorem readAssignments_clauses (hafter : ∀ l ∈ after.head?, l.lead ≠ Clause.setLead owner) :
    ∀ {ps : Properties} {n : Nat}, Holds values (Draft.assignments owner n ps) →
      readAssignments values owner n
        ((Draft.assignments owner n ps).clauses.map Clause.line ++ after) = (ps, after)
  | [], n, _ => by
    show readAssignments values owner n after = ([], after)
    cases after with
    | nil => rfl
    | cons l after => rw [readAssignments, readAssignment_of_lead (hafter l rfl)]
  | (name, .set value) :: ps, n, h => by
    have hrest := readAssignments_clauses hafter h.right
    have hvalue : values ⟨owner, .value n⟩ = some value := h _ List.mem_cons_self
    have hone : readAssignment values owner n (Clause.set owner name (.value n)).line
        = some (name, .set value) := by
      show (if _ then _ else _) = _
      rw [if_pos rfl, hvalue]
      rfl
    show readAssignments values owner n ((Clause.set owner name (.value n)).line ::
      ((Draft.assignments owner (n + 1) ps).clauses.map Clause.line ++ after)) = _
    rw [readAssignments, hone, hrest]
  | (name, .update a value default) :: ps, n, h => by
    have hrest := readAssignments_clauses hafter h.right
    have hvalue : values ⟨owner, .value n⟩ = some value := h _ List.mem_cons_self
    have hdefault : values ⟨owner, .default n⟩ = some default :=
      h _ (List.mem_cons_of_mem _ List.mem_cons_self)
    let line : Arithmetic → Line := fun a =>
      (Clause.update owner name a (.value n) (.default n)).line
    have hfind : (Arithmetic.all.find? fun a' => line a = line a') = some a := by
      have hsame : ∀ a', (line a = line a') = (a = a') := fun a' =>
        propext ⟨Clause.operation_of_line, congrArg line⟩
      simp only [hsame]
      cases a <;> rfl
    have hone : readAssignment values owner n (line a) = some (name, .update a value default) := by
      show ((Arithmetic.all.find? fun a' => line a = line a').bind _) = _
      rw [hfind, Option.bind_some, hvalue, Option.bind_some, hdefault]
      rfl
    show readAssignments values owner n (line a ::
      ((Draft.assignments owner (n + 1) ps).clauses.map Clause.line ++ after)) = _
    rw [readAssignments, hone, hrest]

/-- The values of keys are read back. -/
theorem readKeys_values : ∀ {ps : Properties} {n : Nat},
    (∀ x ∈ ps.zipIdx n, values ⟨owner, .key x.2⟩ = some x.1.2.value) →
      readKeys values owner n (ps.map Prod.fst) = some (ps.map fun p => (p.1, p.2.value))
  | [], _, _ => rfl
  | p :: ps, n, h => by
    have hone : values ⟨owner, .key n⟩ = some p.2.value := h (p, n) List.mem_cons_self
    have hrest := readKeys_values fun x (hx : x ∈ ps.zipIdx (n + 1)) =>
      h x (List.mem_cons_of_mem _ hx)
    rw [List.map_cons, readKeys, hone, Option.bind_some, hrest]
    rfl

/-- The slots of the properties that a node is merged on. -/
theorem keySlots_keys (ps : Properties) :
    keySlots ((ps.filter fun p => !p.2.isArithmetic).map Prod.fst)
      = (Draft.keys ps).map fun key => key.1 := by
  rw [keySlots, Draft.keys, List.zipIdx_map, List.map_map, List.map_map]
  rfl

/-- A node that is merged on properties is not taken for one that is merged on its id. -/
theorem keys_line_ne (names : List Text) (mergeOn : Text) {label : Text} :
    (Clause.mergeNode owner label (keySlots names)).line
      ≠ (Clause.mergeNode owner label [(mergeOn, .id)]).line := by
  intro hline
  have hparameters : (keySlots names).map (fun key => (⟨owner, key.2⟩ : Parameter))
      = [⟨owner, .id⟩] := Clause.parameters_of_line hline
  have hmem : (⟨owner, .id⟩ : Parameter)
      ∈ (keySlots names).map fun key => (⟨owner, key.2⟩ : Parameter) := by
    rw [hparameters]
    exact List.mem_singleton_self _
  obtain ⟨key, hkey, hslot⟩ := List.mem_map.mp hmem
  obtain ⟨x, _, rfl⟩ := List.mem_map.mp hkey
  cases hslot

/-- **The clauses of a node are read back.** -/
theorem readNode_clauses (hafter : ∀ l ∈ after.head?, l.lead ≠ Clause.setLead owner) {e : Entity}
    (h : Holds values (Draft.node owner e)) :
    readNode values owner ((Draft.node owner e).clauses.map Clause.line ++ after)
      = some (.ofEntity e, after) := by
  unfold Draft.node at h ⊢
  cases hid : e.id? with
  | some id =>
    rw [hid] at h
    have hassigned := readAssignments_clauses hafter h.right
    have hvalue : values ⟨owner, .id⟩ = some (.text id) := h _ List.mem_cons_self
    show readNode values owner ((Clause.mergeNode owner e.name [(e.mergeOn, .id)]).line ::
      ((Draft.assignments owner 0 e.properties).clauses.map Clause.line ++ after)) = _
    simp only [readNode, hassigned, Clause.names_mergeNode, List.map_cons, List.headD_cons]
    rw [if_pos trivial, readText, hvalue, NodeReading.ofEntity, hid]
    rfl
  | none =>
    rw [hid] at h
    have hassigned := readAssignments_clauses hafter h.right
    let keys := e.properties.filter fun p => !p.2.isArithmetic
    let slots := (Draft.keys e.properties).map fun key => key.1
    have hslots : slots = keySlots (keys.map Prod.fst) := (keySlots_keys e.properties).symm
    have hnames : slots.map Prod.fst = keys.map Prod.fst := by
      rw [hslots, keySlots, List.map_map]
      exact List.zipIdx_map_fst 0 _
    have hvalues : readKeys values owner 0 (keys.map Prod.fst)
        = some (keys.map fun p => (p.1, p.2.value)) := by
      refine readKeys_values fun x hx => ?_
      refine h (⟨owner, .key x.2⟩, x.1.2.value) (List.mem_append_left _ ?_)
      exact List.mem_map.mpr ⟨((x.1.1, .key x.2), x.1.2.value), List.mem_map.mpr ⟨x, hx, rfl⟩, rfl⟩
    show readNode values owner ((Clause.mergeNode owner e.name slots).line ::
      ((Draft.assignments owner 0 (e.properties.filter fun p => p.2.isArithmetic)).clauses.map
        Clause.line ++ after)) = _
    simp only [readNode, hassigned, Clause.names_mergeNode]
    rw [hnames, ← hslots, if_neg (hslots ▸ keys_line_ne _ _), if_pos rfl, hvalues,
      NodeReading.ofEntity, hid]
    rfl

/-- No assignment is taken for the id of the relationship. -/
theorem readEdgeId_assignments (hafter : ∀ l ∈ after.head?, l.lead ≠ Clause.setLead .relationship)
    (ps : Properties) :
    readEdgeId values ((Draft.assignments .relationship 0 ps).clauses.map Clause.line ++ after)
      = (none, (Draft.assignments .relationship 0 ps).clauses.map Clause.line ++ after) := by
  have hnone : ∀ {l rest}, (∀ mergeOn, l ≠ (Clause.set .relationship mergeOn .id).line) →
      readEdgeId values (l :: rest) = (none, l :: rest) := by
    intro l rest hl
    simp only [readEdgeId]
    rw [if_neg (hl _)]
  match ps with
  | [] =>
    cases after with
    | nil => rfl
    | cons l after =>
      refine hnone fun mergeOn hline => hafter l rfl ?_
      rw [hline]
      rfl
  | (name, .set value) :: ps =>
    refine hnone fun mergeOn hline => ?_
    cases Clause.parameters_of_line hline
  | (name, .update a value default) :: ps =>
    refine hnone fun mergeOn hline => ?_
    cases Clause.parameters_of_line hline

/-- **The clauses of the relationship are read back.** -/
theorem readEdge_clauses (hafter : ∀ l ∈ after.head?, l.lead ≠ Clause.setLead .relationship)
    {e : Entity} (h : Holds values (Draft.relationship e)) :
    readEdge values ((Draft.relationship e).clauses.map Clause.line ++ after)
      = some (.ofEntity e, after) := by
  have hassigned := readAssignments_clauses hafter h.right
  unfold Draft.relationship at h ⊢
  cases hid : e.id? with
  | some id =>
    rw [hid] at h
    have hvalue : values ⟨.relationship, .id⟩ = some (.text id) := h _ List.mem_cons_self
    let rest := (Draft.assignments .relationship 0 e.properties).clauses.map Clause.line ++ after
    have hedgeId : readEdgeId values ((Clause.set .relationship e.mergeOn .id).line :: rest)
        = (some (e.mergeOn, id), rest) := by
      have htext : readText values ⟨.relationship, .id⟩ = some id := by rw [readText, hvalue]
      have htaken : readEdgeId values ((Clause.set .relationship e.mergeOn .id).line :: rest)
        = ((readText values ⟨.relationship, .id⟩).map fun id => (e.mergeOn, id), rest) := if_pos rfl
      rw [htaken, htext]
      rfl
    show readEdge values ((Clause.mergeRelationship e.name).line ::
      (Clause.set .relationship e.mergeOn .id).line :: rest) = _
    simp only [readEdge, hedgeId, rest, hassigned]
    rw [EdgeReading.ofEntity, hid]
    exact if_pos rfl
  | none =>
    show readEdge values ((Clause.mergeRelationship e.name).line ::
      ((Draft.assignments .relationship 0 e.properties).clauses.map Clause.line ++ after)) = _
    simp only [readEdge, readEdgeId_assignments hafter, hassigned]
    rw [EdgeReading.ofEntity, hid]
    exact if_pos rfl

/-- A node begins with the clause that finds it. -/
theorem exists_node_clauses (owner : Alias) (e : Entity) :
    ∃ keys rest, (Draft.node owner e).clauses = .mergeNode owner e.name keys :: rest := by
  unfold Draft.node
  cases e.id? with
  | some id => exact ⟨_, _, rfl⟩
  | none => exact ⟨_, _, rfl⟩

/-- **The lines of an instruction are read back.** -/
theorem readLines_clauses {i : Instruction} (h : Holds values (Draft.ofInstruction i)) :
    readLines values ((Draft.ofInstruction i).clauses.map Clause.line)
      = some (.ofInstruction i) := by
  cases i with
  | insert node =>
    have hend : ∀ l ∈ [(Clause.returning [.first]).line].head?,
        l.lead ≠ Clause.setLead .first := by
      rintro l ⟨⟩
      decide
    rw [Draft.ofInstruction, Draft.clauses_append, List.map_append, List.map_singleton, readLines,
      readNode_clauses hend h.left, Option.bind_some]
    exact if_pos rfl
  | connect first between second =>
    let ending := [(Clause.returning [.first, .second, .relationship]).line]
    let edge := (Draft.relationship between).clauses.map Clause.line ++ ending
    let node := (Draft.node .second second).clauses.map Clause.line ++ edge
    have hending : ∀ l ∈ ending.head?, l.lead ≠ Clause.setLead .relationship := by
      rintro l ⟨⟩
      decide
    have hedge : ∀ l ∈ edge.head?, l.lead ≠ Clause.setLead .second := by
      have hlead : Clause.edgeLead ≠ Clause.setLead .second := by decide
      rintro l ⟨⟩
      exact hlead
    obtain ⟨keys, rest, hclauses⟩ := exists_node_clauses .second second
    have hfirst : node = (Clause.mergeNode .second second.name keys).line
        :: (rest.map Clause.line ++ edge) := by
      show (Draft.node .second second).clauses.map Clause.line ++ edge = _
      rw [hclauses, List.map_cons, List.cons_append]
    have hnode : ∀ l ∈ node.head?, l.lead ≠ Clause.setLead .first := by
      have hlead : Clause.mergeLead .second ≠ Clause.setLead .first := by decide
      rw [hfirst]
      rintro l ⟨⟩
      rw [Clause.lead_mergeNode]
      exact hlead
    have hgoesOn : node ≠ [(Clause.returning [.first]).line] := by
      have hlead : Clause.mergeLead .second ≠ (Clause.returning [.first]).line.lead := by decide
      rw [hfirst]
      intro hsame
      have hline := congrArg Line.lead (List.cons.inj hsame).1
      rw [Clause.lead_mergeNode] at hline
      exact hlead hline
    have hlines : (Draft.ofInstruction (.connect first between second)).clauses.map Clause.line
        = (Draft.node .first first).clauses.map Clause.line ++ node := by
      simp only [Draft.ofInstruction, Draft.clauses_append, List.map_append, List.append_assoc]
      rfl
    rw [hlines, readLines, readNode_clauses hnode h.left.left.left, Option.bind_some]
    show (if _ then _ else _) = _
    rw [if_neg hgoesOn, readNode_clauses hedge h.left.left.right, Option.bind_some]
    show Option.bind (readEdge values edge) _ = _
    rw [readEdge_clauses hending h.left.right, Option.bind_some]
    exact if_pos rfl

end Query

/-! ## 5. Parameters of drafts -/

namespace Draft

/-- The parameters of a draft. -/
def parameters (d : Draft) : List Parameter := d.values.map Prod.fst

theorem parameters_append (d d' : Draft) : (d ++ d').parameters = d.parameters ++ d'.parameters :=
  List.map_append

/-- The clauses refer to the parameters of the draft, and to no others. -/
def Balanced (d : Draft) : Prop := ∀ p, p ∈ d.clauses.flatMap Clause.parameters ↔ p ∈ d.parameters

theorem Balanced.append {d d' : Draft} (h : d.Balanced) (h' : d'.Balanced) : (d ++ d').Balanced := by
  intro p
  rw [clauses_append, parameters_append, List.flatMap_append, List.mem_append, List.mem_append, h p,
    h' p]

variable {owner : Alias}

theorem balanced_assignments : ∀ {ps : Properties} {n : Nat}, (assignments owner n ps).Balanced
  | [], _ => fun _ => Iff.rfl
  | (name, .set value) :: ps, n => by
    have hone : Balanced ⟨[.set owner name (.value n)], [(⟨owner, .value n⟩, value)]⟩ :=
      fun _ => Iff.rfl
    exact hone.append balanced_assignments
  | (name, .update a value default) :: ps, n => by
    have hone : Balanced ⟨[.update owner name a (.value n) (.default n)],
        [(⟨owner, .value n⟩, value), (⟨owner, .default n⟩, default)]⟩ := by
      intro p
      show p ∈ [_, _] ↔ p ∈ [_, _]
      rw [List.mem_cons, List.mem_singleton, List.mem_cons, List.mem_singleton, or_comm]
    exact hone.append balanced_assignments

theorem balanced_node (e : Entity) : (node owner e).Balanced := by
  unfold node
  cases e.id? with
  | some id =>
    have hone : Balanced ⟨[.mergeNode owner e.name [(e.mergeOn, .id)]],
        [(⟨owner, .id⟩, .text id)]⟩ := fun _ => Iff.rfl
    exact hone.append balanced_assignments
  | none =>
    refine Balanced.append (fun p => ?_) balanced_assignments
    show p ∈ ((keys e.properties).map (·.1)).map _ ++ [] ↔ p ∈ ((keys e.properties).map _).map _
    rw [List.append_nil, List.map_map, List.map_map]
    exact Iff.rfl

theorem balanced_relationship (e : Entity) : (relationship e).Balanced := by
  have htype : Balanced ⟨[.mergeRelationship e.name], []⟩ := fun _ => Iff.rfl
  unfold relationship
  refine (htype.append ?_).append balanced_assignments
  split
  · exact fun _ => Iff.rfl
  · exact fun _ => Iff.rfl

/-- **The clauses of an instruction refer to its parameters**, and to no others. -/
theorem balanced_ofInstruction (i : Instruction) : (ofInstruction i).Balanced := by
  have hreturning : ∀ aliases, Balanced ⟨[.returning aliases], []⟩ := fun _ _ => Iff.rfl
  cases i with
  | insert left => exact (balanced_node left).append (hreturning _)
  | connect left between right =>
    exact (((balanced_node left).append (balanced_node right)).append
      (balanced_relationship between)).append (hreturning _)

theorem nodup_append {d d' : Draft} (h : d.parameters.Nodup) (h' : d'.parameters.Nodup)
    (hapart : ∀ p ∈ d.parameters, p ∉ d'.parameters) : (d ++ d').parameters.Nodup := by
  rw [parameters_append, List.nodup_append]
  refine ⟨h, h', fun p hp q hq hsame => ?_⟩
  rw [hsame] at hp
  exact hapart q hp hq

/-- The parameters of assignments from number `n` on. -/
theorem slot_of_assignments : ∀ {ps : Properties} {n : Nat},
    ∀ p ∈ (assignments owner n ps).parameters,
      p.owner = owner ∧ ∃ m, n ≤ m ∧ (p.slot = .value m ∨ p.slot = .default m)
  | [], _, _, hp => absurd hp List.not_mem_nil
  | (name, .set value) :: ps, n, p, hp => by
    rcases List.mem_cons.mp hp with rfl | hp
    · exact ⟨rfl, n, Nat.le_refl n, .inl rfl⟩
    · have hlater : p ∈ (assignments owner (n + 1) ps).parameters := hp
      obtain ⟨howner, m, hm, hslot⟩ := slot_of_assignments p hlater
      exact ⟨howner, m, Nat.le_of_succ_le hm, hslot⟩
  | (name, .update a value default) :: ps, n, p, hp => by
    rcases List.mem_cons.mp hp with rfl | hp
    · exact ⟨rfl, n, Nat.le_refl n, .inl rfl⟩
    · rcases List.mem_cons.mp hp with rfl | hp
      · exact ⟨rfl, n, Nat.le_refl n, .inr rfl⟩
      · have hlater : p ∈ (assignments owner (n + 1) ps).parameters := hp
        obtain ⟨howner, m, hm, hslot⟩ := slot_of_assignments p hlater
        exact ⟨howner, m, Nat.le_of_succ_le hm, hslot⟩

/-- A slot of assignment `n` is none of those that follow. -/
theorem notMem_assignments {ps : Properties} {n : Nat} {slot : Slot}
    (hslot : slot = .value n ∨ slot = .default n) :
    (⟨owner, slot⟩ : Parameter) ∉ (assignments owner (n + 1) ps).parameters := by
  intro hmem
  obtain ⟨_, m, hm, hother⟩ := slot_of_assignments _ hmem
  have hsame : m = n := by
    rcases hslot with rfl | rfl
    · rcases hother with hother | hother
      · cases hother; rfl
      · cases hother
    · rcases hother with hother | hother
      · cases hother
      · cases hother; rfl
  omega

/-- Nor is the slot of an id. -/
theorem id_notMem_assignments {ps : Properties} {n : Nat} :
    (⟨owner, .id⟩ : Parameter) ∉ (assignments owner n ps).parameters := by
  intro hmem
  obtain ⟨_, m, _, hslot⟩ := slot_of_assignments _ hmem
  rcases hslot with hslot | hslot
  · cases hslot
  · cases hslot

/-- Nor is the slot of a property that a node is merged on. -/
theorem key_notMem_assignments {ps : Properties} {n k : Nat} :
    (⟨owner, .key k⟩ : Parameter) ∉ (assignments owner n ps).parameters := by
  intro hmem
  obtain ⟨_, m, _, hslot⟩ := slot_of_assignments _ hmem
  rcases hslot with hslot | hslot
  · cases hslot
  · cases hslot

theorem nodup_assignments : ∀ {ps : Properties} {n : Nat},
    (assignments owner n ps).parameters.Nodup
  | [], _ => List.nodup_nil
  | (name, .set value) :: ps, n =>
    List.nodup_cons.mpr ⟨notMem_assignments (.inl rfl), nodup_assignments⟩
  | (name, .update a value default) :: ps, n => by
    refine List.nodup_cons.mpr ⟨fun hmem => ?_,
      List.nodup_cons.mpr ⟨notMem_assignments (.inr rfl), nodup_assignments⟩⟩
    rcases List.mem_cons.mp hmem with hsame | hmem
    · cases hsame
    · exact notMem_assignments (.inl rfl) hmem

/-- The parameters of the properties that a node is merged on are numbered. -/
theorem parameters_keys (ps : Properties) :
    ((keys ps).map fun key => (⟨owner, key.1.2⟩ : Parameter))
      = (List.range (ps.filter fun p => !p.2.isArithmetic).length).map fun n => ⟨owner, .key n⟩ := by
  rw [List.range_eq_range', ← List.zipIdx_map_snd, keys, List.map_map, List.map_map]
  rfl

/-- The parameters of a node are its own, and none of them is there twice. -/
theorem parameters_node (owner : Alias) (e : Entity) :
    (∀ p ∈ (node owner e).parameters, p.owner = owner) ∧ (node owner e).parameters.Nodup := by
  unfold node
  cases e.id? with
  | some id =>
    constructor
    · refine List.forall_mem_cons.mpr ⟨rfl, fun p hp => (slot_of_assignments p hp).1⟩
    · exact List.nodup_cons.mpr ⟨id_notMem_assignments, nodup_assignments⟩
  | none =>
    let first : Draft := ⟨[.mergeNode owner e.name ((keys e.properties).map (·.1))],
      (keys e.properties).map fun key => (⟨owner, key.1.2⟩, key.2)⟩
    have hfirst : first.parameters = (List.range (e.properties.filter fun p =>
        !p.2.isArithmetic).length).map fun n => ⟨owner, .key n⟩ := by
      rw [← parameters_keys]
      exact List.map_map
    have hkey : ∀ p ∈ first.parameters, ∃ n, p = ⟨owner, .key n⟩ := by
      intro p hp
      rw [hfirst] at hp
      obtain ⟨n, _, rfl⟩ := List.mem_map.mp hp
      exact ⟨n, rfl⟩
    constructor
    · intro p hp
      rw [parameters_append] at hp
      rcases List.mem_append.mp hp with hp | hp
      · obtain ⟨n, rfl⟩ := hkey p hp
        rfl
      · exact (slot_of_assignments p hp).1
    · refine nodup_append ?_ nodup_assignments fun p hp hmem => ?_
      · show first.parameters.Nodup
        rw [hfirst]
        exact List.pairwise_map.mpr (List.nodup_range.imp fun hne hsame => hne (by cases hsame; rfl))
      · obtain ⟨n, rfl⟩ := hkey p hp
        exact key_notMem_assignments hmem

/-- So are those of the relationship. -/
theorem parameters_relationship (e : Entity) :
    (∀ p ∈ (relationship e).parameters, p.owner = .relationship) ∧
      (relationship e).parameters.Nodup := by
  unfold relationship
  cases e.id? with
  | some id =>
    constructor
    · refine List.forall_mem_cons.mpr ⟨rfl, fun p hp => (slot_of_assignments p hp).1⟩
    · exact List.nodup_cons.mpr ⟨id_notMem_assignments, nodup_assignments⟩
  | none => exact ⟨fun p hp => (slot_of_assignments p hp).1, nodup_assignments⟩

/-- **No parameter of an instruction is there twice.** -/
theorem nodup_ofInstruction (i : Instruction) : (ofInstruction i).parameters.Nodup := by
  have hreturning : ∀ d aliases, (d ++ ⟨[.returning aliases], []⟩ : Draft).parameters
      = d.parameters := fun d _ => (parameters_append d _).trans (List.append_nil _)
  cases i with
  | insert left =>
    rw [ofInstruction, hreturning]
    exact (parameters_node .first left).2
  | connect left between right =>
    obtain ⟨hleft, hleft'⟩ := parameters_node .first left
    obtain ⟨hright, hright'⟩ := parameters_node .second right
    obtain ⟨hbetween, hbetween'⟩ := parameters_relationship between
    rw [ofInstruction, hreturning]
    refine nodup_append (nodup_append hleft' hright' fun p hp hq => ?_) hbetween' fun p hp hq => ?_
    · have howner := hleft p hp
      rw [hright p hq] at howner
      cases howner
    · rw [parameters_append] at hp
      rcases List.mem_append.mp hp with hp | hp
      · have howner := hleft p hp
        rw [hbetween p hq] at howner
        cases howner
      · have howner := hright p hp
        rw [hbetween p hq] at howner
        cases howner

end Draft

/-! ## 6. Other names -/

/-- The entity with other names; its id and its values stay. -/
def Entity.renamed (f : Text → Text) (e : Entity) : Entity :=
  { e with
    name := f e.name
    mergeOn := f e.mergeOn
    properties := e.properties.map fun p => (f p.1, p.2) }

/-- The instruction with other names. -/
def Instruction.renamed (f : Text → Text) : Instruction → Instruction
  | .insert left => .insert (left.renamed f)
  | .connect left between right =>
    .connect (left.renamed f) (between.renamed f) (right.renamed f)

/-- The clause with other names. -/
def Clause.renamed (f : Text → Text) : Clause → Clause
  | .mergeNode owner label keys => .mergeNode owner (f label) (keys.map fun key => (f key.1, key.2))
  | .mergeRelationship type => .mergeRelationship (f type)
  | .set owner property slot => .set owner (f property) slot
  | .update owner property operation slot default =>
    .update owner (f property) operation slot default
  | .returning aliases => .returning aliases

/-- The draft with other names. -/
def Draft.renamed (f : Text → Text) (d : Draft) : Draft :=
  { d with clauses := d.clauses.map (Clause.renamed f) }

section Renamed

variable (f : Text → Text)

/-- Other names stand in the places of the names, and nothing else is changed. -/
theorem Clause.line_renamed (c : Clause) : (c.renamed f).line = c.line.renamed f := by
  have hparts : ∀ owner keys, keyParts owner (keys.map fun key => (f key.1, key.2))
      = (keyParts owner keys).map fun part => (f part.1, part.2) := by
    intro owner keys
    induction keys with
    | nil => rfl
    | cons key keys ih =>
      have hend : keyEnd (keys.map fun key => (f key.1, key.2)) = keyEnd keys := by
        cases keys <;> rfl
      rw [List.map_cons, keyParts, keyParts, ih, hend]
      rfl
  cases c with
  | mergeNode owner label keys =>
    cases keys with
    | nil => rfl
    | cons key keys =>
      have hkeys := hparts owner (key :: keys)
      show Line.mk _ ((f label, _) :: keyParts owner ((key :: keys).map _)) = _
      rw [hkeys]
      rfl
  | mergeRelationship type => rfl
  | set owner property slot => rfl
  | update owner property operation slot default => rfl
  | returning aliases => rfl

namespace Draft

theorem renamed_append (d d' : Draft) : (d ++ d').renamed f = d.renamed f ++ d'.renamed f := by
  show Draft.mk ((d.clauses ++ d'.clauses).map _) (d.values ++ d'.values) = _
  rw [List.map_append]
  rfl

theorem assignments_renamed (owner : Alias) : ∀ (ps : Properties) (n : Nat),
    assignments owner n (ps.map fun p => (f p.1, p.2)) = (assignments owner n ps).renamed f
  | [], _ => rfl
  | (name, .set value) :: ps, n => by
    rw [List.map_cons, assignments, assignments, renamed_append, assignments_renamed owner ps]
    rfl
  | (name, .update a value default) :: ps, n => by
    rw [List.map_cons, assignments, assignments, renamed_append, assignments_renamed owner ps]
    rfl

theorem keys_renamed (ps : Properties) :
    keys (ps.map fun p => (f p.1, p.2)) = (keys ps).map fun key => ((f key.1.1, key.1.2), key.2) := by
  rw [keys, List.filter_map, List.zipIdx_map, List.map_map, keys, List.map_map]
  rfl

theorem node_renamed (owner : Alias) (e : Entity) :
    node owner (e.renamed f) = (node owner e).renamed f := by
  unfold node
  rw [show (e.renamed f).id? = e.id? from rfl]
  cases e.id? with
  | some id =>
    dsimp only
    rw [renamed_append, ← assignments_renamed]
    rfl
  | none =>
    have hupdates : (e.renamed f).properties.filter (fun p => p.2.isArithmetic)
        = (e.properties.filter fun p => p.2.isArithmetic).map fun p => (f p.1, p.2) :=
      List.filter_map
    have hkeys : keys (e.renamed f).properties
        = (keys e.properties).map fun key => ((f key.1.1, key.1.2), key.2) := keys_renamed f _
    dsimp only
    rw [renamed_append, ← assignments_renamed, hupdates, hkeys, List.map_map, List.map_map]
    simp only [renamed, Clause.renamed, List.map_singleton, List.map_map]
    rfl

theorem relationship_renamed (e : Entity) :
    relationship (e.renamed f) = (relationship e).renamed f := by
  unfold relationship
  rw [show (e.renamed f).id? = e.id? from rfl]
  cases e.id? with
  | some id =>
    dsimp only
    rw [renamed_append, renamed_append, ← assignments_renamed]
    rfl
  | none =>
    dsimp only
    rw [renamed_append, renamed_append, ← assignments_renamed]
    rfl

/-- **Other names make a draft with other names**, of the same clauses and values. -/
theorem ofInstruction_renamed (i : Instruction) :
    ofInstruction (i.renamed f) = (ofInstruction i).renamed f := by
  cases i with
  | insert left =>
    show node .first (left.renamed f) ++ _ = _
    rw [node_renamed, ofInstruction, renamed_append]
    rfl
  | connect left between right =>
    show node .first (left.renamed f) ++ node .second (right.renamed f)
      ++ relationship (between.renamed f) ++ _ = _
    rw [node_renamed, node_renamed, relationship_renamed, ofInstruction, renamed_append,
      renamed_append, renamed_append]
    rfl

end Draft

end Renamed

/-! ## 7. Statements -/

/-- A value is found by the name of its parameter. -/
theorem lookup_of_mem : ∀ {values : List (Parameter × Value)}, (values.map Prod.fst).Nodup →
    ∀ v ∈ values, (values.map fun (p, value) => (p.text, value)).lookup v.1.text = some v.2
  | [], _, _, hv => absurd hv List.not_mem_nil
  | w :: values, hnodup, v, hv => by
    obtain ⟨hw, hrest⟩ := List.nodup_cons.mp hnodup
    rw [List.map_cons, List.lookup_cons]
    rcases List.mem_cons.mp hv with rfl | hv
    · rw [beq_self_eq_true]
    · have hne : v.1.text ≠ w.1.text := by
        intro hsame
        have hparameter : v.1 = w.1 := Parameter.text_inj hsame
        exact hw (hparameter ▸ List.mem_map_of_mem hv)
      rw [beq_false_of_ne hne]
      exact lookup_of_mem hrest v hv

/-- Other names do not decide whether an instruction is passed over. -/
theorem Instruction.isSkipped_renamed (keepBlank : Bool) (f : Text → Text) (i : Instruction) :
    (i.renamed f).isSkipped keepBlank = i.isSkipped keepBlank := by
  cases i <;> rfl

/-- **A statement can be read back, whatever the names contain.** Its query and its parameters say
    what the instruction says. Other names change the names in the query, and neither its clauses nor
    what else stands in them nor the parameters. No two values have parameters of the same name, and
    the query refers to exactly the parameters there are. -/
theorem statement_read_back (keepBlank : Bool) (i : Instruction) (s : Statement)
    (h : Statement.ofInstruction keepBlank i = some s) :
    s.read? = some (.ofInstruction i) ∧
      (∀ f, ∃ s', Statement.ofInstruction keepBlank (i.renamed f) = some s' ∧
        s'.parameters = s.parameters ∧
        Query.lines? s'.query = (Query.lines? s.query).map (List.map (Line.renamed f))) ∧
      (s.parameters.map Prod.fst).Nodup ∧
      ∀ name, name ∈ Query.references s.query ↔ name ∈ s.parameters.map Prod.fst := by
  obtain ⟨hkept, rfl⟩ : ¬ i.isSkipped keepBlank ∧ (Draft.ofInstruction i).statement = s := by
    unfold Statement.ofInstruction at h
    split at h
    · cases h
    · exact ⟨‹_›, Option.some.inj h⟩
  have hnodup := Draft.nodup_ofInstruction i
  have hholds : Query.Holds (fun p => (Draft.ofInstruction i).statement.parameters.lookup p.text)
      (Draft.ofInstruction i) := lookup_of_mem hnodup
  have hlines : Query.lines? (Draft.ofInstruction i).statement.query
      = some ((Draft.ofInstruction i).clauses.map Clause.line) :=
    Clause.lines?_clauses (Draft.clauses_ne_nil i)
  have hnames : (Draft.ofInstruction i).statement.parameters.map Prod.fst
      = (Draft.ofInstruction i).parameters.map Parameter.text := by
    rw [Draft.parameters, List.map_map]
    exact List.map_map
  refine ⟨?_, fun f => ?_, ?_, fun name => ?_⟩
  · rw [Statement.read?, hlines]
    exact Query.readLines_clauses hholds
  · have hrenamed := Draft.ofInstruction_renamed f i
    have hlines' : Query.lines? (Draft.ofInstruction (i.renamed f)).statement.query
        = some ((Draft.ofInstruction (i.renamed f)).clauses.map Clause.line) :=
      Clause.lines?_clauses (Draft.clauses_ne_nil _)
    refine ⟨(Draft.ofInstruction (i.renamed f)).statement, ?_, ?_, ?_⟩
    · rw [Statement.ofInstruction, Instruction.isSkipped_renamed, if_neg hkept]
    · rw [hrenamed]
      rfl
    · rw [hlines', hlines, hrenamed, Option.map_some, Draft.renamed, List.map_map, List.map_map]
      exact congrArg some (List.map_congr_left fun c _ => Clause.line_renamed f c)
  · rw [hnames]
    exact List.pairwise_map.mpr (hnodup.imp fun hne hsame => hne (Parameter.text_inj hsame))
  · rw [hnames]
    have hreferences : Query.references (Draft.ofInstruction i).statement.query
        = ((Draft.ofInstruction i).clauses.flatMap Clause.parameters).map Parameter.text :=
      Clause.references_clauses (Draft.clauses_ne_nil i)
    rw [hreferences, List.mem_map, List.mem_map]
    constructor
    · rintro ⟨p, hp, rfl⟩
      exact ⟨p, (Draft.balanced_ofInstruction i p).mp hp, rfl⟩
    · rintro ⟨p, hp, rfl⟩
      exact ⟨p, (Draft.balanced_ofInstruction i p).mpr hp, rfl⟩

/-- A label that looks like the end of the statement, and properties that look like references. -/
theorem statement_read_back_hostile :
    let i : Instruction := .insert ⟨"A`) SET a.`x` = $a_p0\nRETURN a\n", "id", none,
      [("$a_k0", .set (.text "`")), ("", .update .subtract (.int 2) (.int 1))]⟩
    ∃ s, Statement.ofInstruction false i = some s ∧ s.read? = some (.ofInstruction i) ∧
      ∀ name, name ∈ Query.references s.query ↔ name ∈ s.parameters.map Prod.fst := by
  intro i
  have h : Statement.ofInstruction false i = some (Draft.ofInstruction i).statement := rfl
  obtain ⟨hread, _, _, hreferences⟩ := statement_read_back false i _ h
  exact ⟨_, h, hread, hreferences⟩

end GraphFeed
