import GraphFeed.Instruction.Lexeme

/-!
# A parser of instructions

`Parser.ofLexemes` is the parser that the program runs with. What is said of reading instructions is
said of all parsers that accept the grammar, of which it is one.

A bare run may hold commas and hyphens, so a list of properties is read by its assignment signs.
`readSegments` cuts it behind every `:` and operator; between two of them stand the value of one
property, a comma and the name of the next. Every comma that leaves a text on either side may be
the one that separates (`separations`). Of these the first is taken, except that in a list of three,
five, or any further odd number of properties the last one separates the first two.
-/

namespace GraphFeed

namespace Parsing

open ParseTree (Property Key)

/-! ## 1. Links -/

/-- What stands between a name and its value: the operator, and the default of an update. -/
inductive Link
  | set
  | update (operation : Arithmetic) (default : Option Token)
deriving DecidableEq

/-- The property of a name and a value with a link between them. -/
def Link.property (link : Link) (name value : Token) : Property :=
  match link with
  | .set => .set name value
  | .update operation none => .arithmetic name operation value
  | .update operation (some default) => .defaulted name default operation value

open Lexeme (word? dropBlank isWord)

/-! ## 2. Segments of a property list -/

/-- Reads an operator behind a name that does not end in its hyphen, or behind a default. -/
def readOperator : List Lexeme → Option (Arithmetic × List Lexeme)
  | .sign c :: .sign e :: rest =>
    if e = '=' then (Arithmetic.ofSign? c).map fun a => (a, rest) else none
  | .bare run :: .sign e :: rest =>
    if run = [('-' : CodePoint)] ∧ e = '=' then some (.subtract, rest) else none
  | _ => none

/-- Takes a hyphen away from the end of words; a run that was nothing else is gone. -/
def takeHyphen (words : List Lexeme) : Option (List Lexeme) :=
  match words.getLast? with
  | some (.bare run) =>
    if run.getLast? = some ('-' : CodePoint) then
      some (if run.length = 1 then words.dropLast else words.dropLast ++ [.bare run.dropLast])
    else none
  | _ => none

/-- Reads a link, the words before which are given: what is left of the words, the link and the
    rest. -/
def readLink (words rest : List Lexeme) : Option (List Lexeme × Link × List Lexeme) :=
  match rest with
  | .sign c :: after =>
    if c = ':' then some (words, .set, after)
    else if c = '=' then (takeHyphen words).map fun words => (words, .update .subtract none, after)
    else if c = '(' then
      match word? (after.takeWhile isWord), after.dropWhile isWord with
      | some default, .sign p :: behind =>
        if p = ')' then
          (readOperator (dropBlank behind)).map fun (a, rest) =>
            (words, .update a (some default), rest)
        else none
      | _, _ => none
    else (readOperator rest).map fun (a, rest) => (words, .update a none, rest)
  | _ => none

theorem readOperator_length {ls rest : List Lexeme} {a : Arithmetic}
    (h : readOperator ls = some (a, rest)) : rest.length < ls.length := by
  unfold readOperator at h
  split at h
  · split at h
    · obtain ⟨b, _, he⟩ := Option.map_eq_some_iff.1 h
      cases he; simp only [List.length_cons]; omega
    · cases h
  · split at h
    · cases h; simp only [List.length_cons]; omega
    · cases h
  · cases h

theorem readLink_length {words ls words' rest : List Lexeme} {link : Link}
    (h : readLink words ls = some (words', link, rest)) : rest.length < ls.length := by
  unfold readLink at h
  split at h
  · rename_i c after
    split at h
    · cases h; simp
    · split at h
      · obtain ⟨b, _, he⟩ := Option.map_eq_some_iff.1 h
        cases he; simp
      · split at h
        · split at h
          · rename_i _ _ _ p behind _ hd
            split at h
            · obtain ⟨⟨a, r⟩, ho, he⟩ := Option.map_eq_some_iff.1 h
              cases he
              have h₁ := readOperator_length ho
              have h₂ := Lexeme.length_dropBlank_le behind
              have h₃ := Lexeme.length_dropWhile_le isWord after
              rw [hd] at h₃
              simp only [List.length_cons] at h₃ ⊢
              omega
            · cases h
          · cases h
        · obtain ⟨⟨a, r⟩, ho, he⟩ := Option.map_eq_some_iff.1 h
          cases he
          exact readOperator_length ho
  · cases h

/-- Cuts a list of properties, the opening sign of which is gone, behind every link. The words
    before each link, with the link; the words before the closing sign; the rest. -/
def readSegments (ls : List Lexeme) :
    Option (List (List Lexeme × Link) × List Lexeme × List Lexeme) :=
  match hd : ls.dropWhile isWord with
  | [] => none
  | l :: after =>
    if l = .sign ')' then some ([], ls.takeWhile isWord, after)
    else
      match hl : readLink (ls.takeWhile isWord) (l :: after) with
      | none => none
      | some (words, link, rest) =>
        have : rest.length < ls.length := by
          have h₁ := readLink_length hl
          have h₂ := Lexeme.length_dropWhile_le isWord ls
          rw [hd] at h₂
          omega
        (readSegments rest).map fun (segments, last, rest) =>
          ((words, link) :: segments, last, rest)
termination_by ls.length

/-! ## 3. Properties -/

/-- A bare run as lexemes; none if it is empty. -/
def bareRun : Text → List Lexeme
  | [] => []
  | run => [.bare run]

/-- All ways to take one comma out of words: what is before it, and what is after it. -/
def commas : List Lexeme → List (List Lexeme × List Lexeme)
  | [] => []
  | .bare run :: rest =>
    (run.zipIdx.filter fun p => p.1 = (',' : CodePoint)).map (fun p =>
      (bareRun (run.take p.2), bareRun (run.drop (p.2 + 1)) ++ rest))
    ++ (commas rest).map fun (before, after) => (.bare run :: before, after)
  | l :: rest => (commas rest).map fun (before, after) => (l :: before, after)

/-- The lexeme is a bare run. -/
def isRun : Lexeme → Bool
  | .bare _ => true
  | _ => false

section Commas

variable {l : Lexeme} {run : Text} {before after rest : List Lexeme}

/-- A comma stands in the run, or in what comes behind it. -/
theorem mem_commas_bare : (before, after) ∈ commas (.bare run :: rest) ↔
    (∃ front back, run = front ++ (',' : CodePoint) :: back ∧ before = bareRun front ∧
      after = bareRun back ++ rest) ∨
    ∃ before', (before', after) ∈ commas rest ∧ before = .bare run :: before' := by
  rw [commas, List.mem_append]
  refine or_congr ⟨fun h => ?_, ?_⟩ ⟨fun h => ?_, ?_⟩
  · obtain ⟨⟨c, n⟩, hplace, heq⟩ := List.mem_map.mp h
    cases heq
    obtain ⟨hmem, hcomma⟩ := List.mem_filter.mp hplace
    have hat : run[n]? = some (',' : CodePoint) := by
      rw [← of_decide_eq_true hcomma]
      exact List.mem_zipIdx_iff_getElem?.mp hmem
    obtain ⟨hlt, hget⟩ := List.getElem?_eq_some_iff.mp hat
    refine ⟨run.take n, run.drop (n + 1), ?_, rfl, rfl⟩
    rw [← hget, List.getElem_cons_drop, List.take_append_drop]
  · rintro ⟨front, back, rfl, rfl, rfl⟩
    refine List.mem_map.mpr ⟨(',', front.length), List.mem_filter.mpr ⟨?_, rfl⟩, ?_⟩
    · exact List.mem_zipIdx_iff_getElem?.mpr (by simp)
    · simp
  · obtain ⟨⟨before', after'⟩, hmem, heq⟩ := List.mem_map.mp h
    cases heq
    exact ⟨before', hmem, rfl⟩
  · rintro ⟨before', hmem, rfl⟩
    exact List.mem_map.mpr ⟨_, hmem, rfl⟩

/-- No comma stands in a lexeme that is no run. -/
theorem mem_commas_cons (hl : isRun l = false) : (before, after) ∈ commas (l :: rest) ↔
    ∃ before', (before', after) ∈ commas rest ∧ before = l :: before' := by
  have hcommas : commas (l :: rest) = (commas rest).map fun p => (l :: p.1, p.2) := by
    cases l with
    | bare run => cases hl
    | quoted | blank | sign => rfl
  rw [hcommas]
  constructor
  · intro h
    obtain ⟨⟨before', after'⟩, hmem, heq⟩ := List.mem_map.mp h
    cases heq
    exact ⟨before', hmem, rfl⟩
  · rintro ⟨before', hmem, rfl⟩
    exact List.mem_map.mpr ⟨_, hmem, rfl⟩

end Commas

/-- All ways to read words as a value, a comma and a name, from the first comma to the last. -/
def separations (words : List Lexeme) : List (Token × Token) :=
  (commas words).filterMap fun (before, after) =>
    match word? before, word? after with
    | some value, some name => some (value, name)
    | _, _ => none

theorem mem_separations_iff {words : List Lexeme} {p : Token × Token} : p ∈ separations words ↔
    ∃ before after, (before, after) ∈ commas words ∧ word? before = some p.1 ∧ word? after = some p.2 := by
  constructor
  · intro h
    obtain ⟨⟨before, after⟩, hcomma, hread⟩ := List.mem_filterMap.mp h
    dsimp only at hread
    split at hread
    · rename_i value name hvalue hname
      cases hread
      exact ⟨before, after, hcomma, hvalue, hname⟩
    · cases hread
  · rintro ⟨before, after, hcomma, hvalue, hname⟩
    refine List.mem_filterMap.mpr ⟨_, hcomma, ?_⟩
    dsimp only
    rw [hvalue, hname]

/-- The value and the name that words are read as. -/
def separate? (last : Bool) (words : List Lexeme) : Option (Token × Token) :=
  if last then (separations words).getLast? else (separations words).head?

theorem mem_separations_of_separate? {words : List Lexeme} {last : Bool} {p : Token × Token}
    (h : separate? last words = some p) : p ∈ separations words := by
  unfold separate? at h
  split at h
  · exact List.mem_of_getLast? h
  · exact List.mem_of_head? h

/-- Reads the properties from a name and its link on. `last` tells that the last comma separates
    this property from the next. -/
def readAssignments (last : Bool) (name : Token) (link : Link) :
    List (List Lexeme × Link) → List Lexeme → Option (List Property)
  | [], words => (word? words).map fun value => [link.property name value]
  | (between, link') :: more, words =>
    match separate? last between with
    | none => none
    | some (value, name') =>
      (readAssignments false name' link' more words).map (link.property name value :: ·)

/-- Reads a list of properties, the opening sign of which is gone. -/
def readProperties (ls : List Lexeme) : Option (List Property × List Lexeme) :=
  match readSegments ls with
  | some ((words, link) :: more, lastWords, rest) =>
    match word? words with
    | some name =>
      (readAssignments (2 ≤ more.length && more.length % 2 = 0) name link more lastWords).map
        fun assignments => (assignments, rest)
    | none => none
  | _ => none

/-! ## 4. Entities and instructions -/

/-- Reads a token. -/
def readToken : List Lexeme → Option (Token × List Lexeme)
  | [] => none
  | l :: rest => l.token?.map fun token => (token, rest)

/-- Reads a key, the colon before which is gone. -/
def readKey (ls : List Lexeme) : Option (Key × List Lexeme) :=
  match readToken (dropBlank ls) with
  | none => none
  | some (first, rest) =>
    match rest with
    | .sign c :: after =>
      if c = '=' then (readToken after).map fun (id, rest) => (.named first id, rest)
      else some (.plain first, rest)
    | _ => some (.plain first, rest)

/-- Reads a key if one is there. -/
def readKey? (ls : List Lexeme) : Option (Option Key × List Lexeme) :=
  match dropBlank ls with
  | .sign c :: rest =>
    if c = ':' then (readKey rest).map fun (key, rest) => (some key, rest) else some (none, ls)
  | _ => some (none, ls)

/-- Reads properties if they are there. -/
def readProperties? (ls : List Lexeme) : Option (List Property × List Lexeme) :=
  match dropBlank ls with
  | .sign c :: rest => if c = '(' then readProperties rest else some ([], ls)
  | _ => some ([], ls)

/-- Reads an entity. -/
def readEntity (ls : List Lexeme) : Option (ParseTree.Entity × List Lexeme) :=
  match readToken ls with
  | none => none
  | some (name, rest) =>
    match readKey? rest with
    | none => none
    | some (key, rest) =>
      (readProperties? rest).map fun (properties, rest) => (⟨name, key, properties⟩, rest)

/-- Reads a run of blanks and an entity. -/
def readNext : List Lexeme → Option (ParseTree.Entity × List Lexeme)
  | .blank :: rest => readEntity rest
  | _ => none

/-- Reads an instruction, with which the lexemes end. -/
def readInstruction (ls : List Lexeme) : Option ParseTree :=
  match readEntity ls with
  | none => none
  | some (left, []) => some (.insert left)
  | some (left, rest) =>
    match readNext rest with
    | none => none
    | some (relationship, rest) =>
      match readNext rest with
      | some (right, []) => some (.connect left relationship right)
      | _ => none

end Parsing

/-- Parses a text by way of its lexemes. -/
def Parser.ofLexemes : Parser := fun t => (Lexeme.ofText? t).bind Parsing.readInstruction

end GraphFeed
