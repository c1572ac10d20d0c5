import GraphFeed.Proofs.Numerals
import GraphFeed.Statement.Clause

/-!
# The text of a query

A query is read back line by line. A name stands between backticks, in which a backtick is written
twice; a line end ends a line only outside of names. So a line is what stands before its first name,
and each name with what follows it (`Line`), whatever the names contain.

* `tokens?_quoted`, `tokens?_outside`: names, and what stands outside of them, are read back;
* `lines?_join`: so are lines (`Line.Proper`);
* `Clause.text_line`, `Clause.proper_line`: every clause is such a line;
* `lines?_clauses`: **the query of clauses has a line for each**, and no name changes it;
* `references_line`: the parameters that a clause refers to.
-/

namespace GraphFeed

/-- What holds of the code points of a separator and of all parts holds of those of a join. -/
theorem Text.forall_mem_join {P : CodePoint → Prop} {separator : Text} (hs : ∀ c ∈ separator, P c) :
    ∀ {parts : List Text}, (∀ part ∈ parts, ∀ c ∈ part, P c) → ∀ c ∈ Text.join separator parts, P c
  | [], _ => fun _ hc => absurd hc List.not_mem_nil
  | [part], h => h part List.mem_cons_self
  | part :: next :: parts, h => by
    have hrest := forall_mem_join hs fun p hp => h p (List.mem_cons_of_mem part hp)
    intro c hc
    rw [join_cons_cons, List.mem_append, List.mem_append] at hc
    rcases hc with (hc | hc) | hc
    · exact h part List.mem_cons_self c hc
    · exact hs c hc
    · exact hrest c hc

namespace Query

/-! ## 1. Tokens -/

/-- What a query is made of: names, and code points that stand outside of them. -/
inductive Token
  | name (t : Text)
  | outside (c : CodePoint)
deriving DecidableEq

/-- Where a reader of a query is. -/
inductive Position
  | outside
  /-- Behind the opening backtick of a name, and so much of the name. -/
  | inside (name : Text)
  /-- Behind a backtick that ends a name, unless another one follows. -/
  | closing (name : Text)

/-- Reads a query from a position on; none if it ends inside a name. -/
def readTokens : Position → Text → Option (List Token)
  | .outside, [] => some []
  | .inside _, [] => none
  | .closing name, [] => some [.name name]
  | .outside, c :: t =>
    if c = '\x60' then readTokens (.inside []) t
    else (readTokens .outside t).map (.outside c :: ·)
  | .inside name, c :: t =>
    if c = '\x60' then readTokens (.closing name) t else readTokens (.inside (name ++ [c])) t
  | .closing name, c :: t =>
    if c = '\x60' then readTokens (.inside (name ++ [c])) t
    else (readTokens .outside t).map fun ts => .name name :: .outside c :: ts

/-- The tokens of a query. -/
def tokens? (query : Text) : Option (List Token) := readTokens .outside query

/-- A text that stands outside of names. -/
def plain (t : Text) : List Token := t.map .outside

variable {name t rest : Text}

/-- **A name is read back, whatever it contains**, if no backtick follows it. -/
theorem tokens?_quoted (hrest : ∀ c ∈ rest.head?, c ≠ '\x60') (name : Text) :
    tokens? (quoteIdentifier name ++ rest) = (tokens? rest).map (.name name :: ·) := by
  have hclosing : ∀ done, readTokens (.closing done) rest
      = (tokens? rest).map (.name done :: ·) := by
    intro done
    cases rest with
    | nil => rfl
    | cons c rest =>
      have hc : c ≠ '\x60' := hrest c rfl
      rw [readTokens, if_neg hc, tokens?, readTokens, if_neg hc, Option.map_map]
      rfl
  have hinside : ∀ (name done : Text),
      readTokens (.inside done) (name.replace '\x60' "\x60\x60" ++ ('\x60' : CodePoint) :: rest)
        = (tokens? rest).map (.name (done ++ name) :: ·) := by
    intro name
    induction name with
    | nil =>
      intro done
      rw [List.append_nil]
      exact hclosing done
    | cons c name ih =>
      intro done
      have hstep := ih (done ++ [c])
      rw [List.append_assoc, List.singleton_append] at hstep
      rw [← hstep]
      by_cases hc : c = ('\x60' : CodePoint)
      · rw [hc]
        rfl
      · rw [Text.replace, List.flatMap_cons, if_neg hc, List.append_assoc, List.singleton_append,
          readTokens, if_neg hc]
        rfl
  have hname := hinside name []
  rw [List.nil_append] at hname
  rw [← hname]
  rw [quoteIdentifier, Text.concat]
  simp only [List.flatten_cons, List.flatten_nil, List.append_nil, List.append_assoc]
  rfl

/-- What stands outside of names is read back. -/
theorem tokens?_plain (ht : ∀ c ∈ t, c ≠ '\x60') (rest : Text) :
    tokens? (t ++ rest) = (tokens? rest).map (plain t ++ ·) := by
  induction t with
  | nil => exact Option.map_id'.symm
  | cons c t ih =>
    have hc : c ≠ '\x60' := ht c List.mem_cons_self
    have htail := ih fun d hd => ht d (List.mem_cons_of_mem c hd)
    rw [tokens?, List.cons_append, readTokens, if_neg hc]
    rw [tokens?] at htail
    rw [htail, Option.map_map]
    rfl

/-! ## 2. Lines -/

/-- A line of a query: what stands before its first name, and each name with what follows it. -/
structure Line where
  lead : Text
  parts : List (Text × Text)
deriving DecidableEq

namespace Line

/-- The line as it is written. -/
def text (l : Line) : Text :=
  l.lead ++ l.parts.flatMap fun (name, tail) => quoteIdentifier name ++ tail

/-- The tokens of the line. -/
def tokens (l : Line) : List Token :=
  plain l.lead ++ l.parts.flatMap fun (name, tail) => .name name :: plain tail

/-- The names of the line. -/
def names (l : Line) : List Text := l.parts.map Prod.fst

/-- The line with other names. -/
def renamed (f : Text → Text) (l : Line) : Line :=
  { l with parts := l.parts.map fun (name, tail) => (f name, tail) }

/-- The line with a code point in front of it. -/
def push (c : CodePoint) (l : Line) : Line := { l with lead := c :: l.lead }

/-- The line with a name in front of it. -/
def named (name : Text) (l : Line) : Line := ⟨[], (name, l.lead) :: l.parts⟩

end Line

/-- Changes the first of lines. -/
def onFirst (f : Line → Line) : List Line → List Line
  | [] => []
  | l :: rest => f l :: rest

/-- Cuts tokens into lines. Line ends in names end no line. -/
def cutLines : List Token → List Line
  | [] => [⟨[], []⟩]
  | .name name :: ts => onFirst (.named name) (cutLines ts)
  | .outside c :: ts =>
    if c = '\n' then ⟨[], []⟩ :: cutLines ts else onFirst (.push c) (cutLines ts)

/-- The lines of a query. -/
def lines? (query : Text) : Option (List Line) := (tokens? query).map cutLines

/-- A text stands outside of names and within a line. -/
def Within (t : Text) : Prop := ∀ c ∈ t, c ≠ '\x60' ∧ c ≠ '\n'

instance (t : Text) : Decidable (Within t) :=
  inferInstanceAs (Decidable (∀ c ∈ t, c ≠ '\x60' ∧ c ≠ '\n'))

theorem Within.append {a b : Text} (ha : Within a) (hb : Within b) : Within (a ++ b) :=
  fun c hc => (List.mem_append.mp hc).elim (ha c) (hb c)

/-- A line is written as it should be: something follows each name, and only names have backticks
    and line ends in them. -/
structure Line.Proper (l : Line) : Prop where
  lead : Within l.lead
  tails : ∀ part ∈ l.parts, part.2 ≠ [] ∧ Within part.2

variable {l : Line} {ls : List Line} {ts : List Token}

/-- Something follows a name, and it is no backtick. -/
theorem tokens?_named {tail : Text} (hne : tail ≠ []) (htail : Within tail) (name rest : Text) :
    tokens? (quoteIdentifier name ++ (tail ++ rest))
      = (tokens? rest).map fun ts => .name name :: plain tail ++ ts := by
  obtain ⟨c, tail, rfl⟩ := List.exists_cons_of_ne_nil hne
  have hhead : ∀ d ∈ (c :: tail ++ rest).head?, d ≠ ('\x60' : CodePoint) := by
    rintro d ⟨⟩
    exact (htail c List.mem_cons_self).1
  rw [tokens?_quoted hhead, tokens?_plain (fun d hd => (htail d hd).1), Option.map_map]
  rfl

/-- **A line is read back**, whatever follows it. -/
theorem tokens?_line (h : l.Proper) (rest : Text) :
    tokens? (l.text ++ rest) = (tokens? rest).map (l.tokens ++ ·) := by
  obtain ⟨lead, parts⟩ := l
  have hparts : ∀ parts : List (Text × Text), (∀ part ∈ parts, part.2 ≠ [] ∧ Within part.2) →
      tokens? ((parts.flatMap fun (name, tail) => quoteIdentifier name ++ tail) ++ rest)
        = (tokens? rest).map
          ((parts.flatMap fun (name, tail) => .name name :: plain tail) ++ ·) := by
    intro parts
    induction parts with
    | nil => exact fun _ => Option.map_id'.symm
    | cons part parts ih =>
      intro hparts
      obtain ⟨hne, htail⟩ := hparts part List.mem_cons_self
      rw [List.flatMap_cons, List.flatMap_cons, List.append_assoc, List.append_assoc,
        tokens?_named hne htail, ih fun q hq => hparts q (List.mem_cons_of_mem part hq),
        Option.map_map]
      congr 1
      funext ts
      simp only [Function.comp_apply, List.append_assoc, List.cons_append]
  rw [Line.text, List.append_assoc, tokens?_plain (fun c hc => (h.lead c hc).1),
    hparts parts h.tails, Option.map_map]
  congr 1
  funext ts
  exact (List.append_assoc ..).symm

theorem onFirst_onFirst (f g : Line → Line) (ls : List Line) :
    onFirst f (onFirst g ls) = onFirst (f ∘ g) ls := by
  cases ls <;> rfl

/-- Within a line, nothing is cut. -/
theorem cutLines_plain {t : Text} (ht : Within t) (ts : List Token) :
    cutLines (plain t ++ ts) = onFirst (fun l => { l with lead := t ++ l.lead }) (cutLines ts) := by
  induction t with
  | nil =>
    show cutLines ts = onFirst id (cutLines ts)
    cases cutLines ts <;> rfl
  | cons c t ih =>
    have hc : c ≠ '\n' := (ht c List.mem_cons_self).2
    have htail := ih fun d hd => ht d (List.mem_cons_of_mem c hd)
    rw [plain, List.map_cons, List.cons_append, cutLines, if_neg hc, ← plain, htail, onFirst_onFirst]
    rfl

/-- **A line is cut off**, if nothing but its end follows. -/
theorem cutLines_line (h : l.Proper) (hend : cutLines ts = ⟨[], []⟩ :: ls) :
    cutLines (l.tokens ++ ts) = l :: ls := by
  obtain ⟨lead, parts⟩ := l
  have hparts : ∀ parts : List (Text × Text), (∀ part ∈ parts, part.2 ≠ [] ∧ Within part.2) →
      cutLines ((parts.flatMap fun (name, tail) => .name name :: plain tail) ++ ts)
        = ⟨[], parts⟩ :: ls := by
    intro parts
    induction parts with
    | nil => exact fun _ => hend
    | cons part parts ih =>
      intro hparts
      have htail := (hparts part List.mem_cons_self).2
      have hrest := ih fun q hq => hparts q (List.mem_cons_of_mem part hq)
      rw [List.flatMap_cons, List.append_assoc, List.cons_append, cutLines, cutLines_plain htail,
        hrest]
      show Line.mk [] ((part.1, part.2 ++ []) :: parts) :: ls = _
      rw [List.append_nil]
  rw [Line.tokens, List.append_assoc, cutLines_plain h.lead, hparts parts h.tails]
  show Line.mk (lead ++ []) parts :: ls = _
  rw [List.append_nil]

/-- **The lines of a query are read back.** -/
theorem lines?_join : ∀ {ls : List Line}, ls ≠ [] → (∀ l ∈ ls, l.Proper) →
    lines? (Text.join "\n" (ls.map Line.text)) = some ls
  | [], hne, _ => absurd rfl hne
  | [l], _, h => by
    have hl := h l List.mem_cons_self
    have htokens := tokens?_line hl []
    rw [List.append_nil] at htokens
    rw [List.map_singleton, Text.join_singleton, lines?, htokens]
    show some (cutLines (l.tokens ++ [])) = some [l]
    rw [cutLines_line hl rfl]
  | l :: m :: ls, _, h => by
    have hl := h l List.mem_cons_self
    have hrest := lines?_join (List.cons_ne_nil m ls) fun k hk => h k (List.mem_cons_of_mem l hk)
    obtain ⟨ts, hts, hcut⟩ := Option.map_eq_some_iff.mp hrest
    have hend : cutLines (plain "\n" ++ ts) = ⟨[], []⟩ :: m :: ls := by
      rw [← hcut]
      rfl
    rw [List.map_cons, List.map_cons, Text.join_cons_cons, ← List.map_cons, List.append_assoc,
      lines?, tokens?_line hl, tokens?_plain (by decide), hts]
    show some (cutLines (l.tokens ++ (plain "\n" ++ ts))) = some (l :: m :: ls)
    rw [cutLines_line hl hend]

/-! ## 3. References -/

/-- A code point that may be part of the name of a parameter. -/
def isWord (c : CodePoint) : Bool :=
  c.isDigit || c.between 'a' 'z' || c.between 'A' 'Z' || c = '_'

/-- The names behind the dollar signs of a text. -/
def dollars : Text → List Text
  | [] => []
  | c :: t => if c = '$' then t.takeWhile isWord :: dollars t else dollars t

/-- The parameters that a line refers to, outside of its names. -/
def Line.references (l : Line) : List Text :=
  dollars l.lead ++ l.parts.flatMap fun part => dollars part.2

/-- The parameters that a query refers to, outside of its names. -/
def references (query : Text) : List Text := ((lines? query).getD []).flatMap Line.references

theorem dollars_append {a : Text} (ha : ∀ c ∈ a, c ≠ '$') (b : Text) :
    dollars (a ++ b) = dollars b := by
  induction a with
  | nil => rfl
  | cons c a ih =>
    rw [List.cons_append, dollars, if_neg (ha c List.mem_cons_self)]
    exact ih fun d hd => ha d (List.mem_cons_of_mem c hd)

theorem ne_of_isWord {c d : CodePoint} (h : isWord c = true) (hd : isWord d = false) : c ≠ d := by
  rintro rfl
  rw [h] at hd
  cases hd

/-- A word behind a dollar sign is found, if no word goes on behind it. -/
theorem dollars_word {word : Text} (hword : ∀ c ∈ word, isWord c = true)
    (hrest : ∀ c ∈ rest.head?, isWord c = false) :
    dollars (('$' : CodePoint) :: (word ++ rest)) = word :: dollars rest := by
  have htake : (word ++ rest).takeWhile isWord = word := by
    rw [List.takeWhile_append_of_pos hword]
    cases rest with
    | nil => exact List.append_nil word
    | cons c rest => rw [List.takeWhile_cons, hrest c rfl]; exact List.append_nil word
  rw [dollars, if_pos rfl, htake,
    dollars_append fun c hc => ne_of_isWord (hword c hc) (by decide)]

end Query

/-! ## 4. Parameters -/

namespace Parameter

theorem isWord_name (owner : Alias) : ∀ c ∈ (owner.name : Text), Query.isWord c = true := by
  cases owner <;> decide

theorem isWord_ofNat {n : Nat} {c : CodePoint} (hc : c ∈ Text.ofNat n) :
    Query.isWord c = true := by
  rw [Query.isWord, isDigit_ofNat hc]
  rfl

/-- The name of a parameter is a word. -/
theorem isWord_text (p : Parameter) : ∀ c ∈ p.text, Query.isWord c = true := by
  have hslot : ∀ c ∈ p.slot.text, Query.isWord c = true := by
    have hp : ∀ c ∈ ("p" : Text), Query.isWord c = true := by decide
    have hk : ∀ c ∈ ("k" : Text), Query.isWord c = true := by decide
    have hid : ∀ c ∈ ("id" : Text), Query.isWord c = true := by decide
    have hdefault : ∀ c ∈ ("_default" : Text), Query.isWord c = true := by decide
    intro c hc
    cases hs : p.slot with
    | id =>
      rw [hs] at hc
      exact hid c hc
    | key n =>
      rw [hs] at hc
      exact (List.mem_append.mp hc).elim (hk c) isWord_ofNat
    | value n =>
      rw [hs] at hc
      exact (List.mem_append.mp hc).elim (hp c) isWord_ofNat
    | default n =>
      rw [hs] at hc
      simp only [Slot.text, Text.concat, List.flatten_cons, List.flatten_nil, List.append_nil,
        List.mem_append] at hc
      rcases hc with hc | hc | hc
      · exact hp c hc
      · exact isWord_ofNat hc
      · exact hdefault c hc
  have hunderscore : ∀ c ∈ ("_" : Text), Query.isWord c = true := by decide
  intro c hc
  simp only [text, Text.concat, List.flatten_cons, List.flatten_nil, List.append_nil,
    List.mem_append] at hc
  rcases hc with hc | hc | hc
  · exact isWord_name p.owner c hc
  · exact hunderscore c hc
  · exact hslot c hc

/-- A reference stands within a line. -/
theorem within_reference (p : Parameter) : Query.Within p.reference := by
  have hword : Query.Within p.text := fun c hc =>
    ⟨Query.ne_of_isWord (p.isWord_text c hc) (by decide),
      Query.ne_of_isWord (p.isWord_text c hc) (by decide)⟩
  have hsign : Query.Within "$" := by decide
  exact hsign.append hword

/-- A reference is found, if no word goes on behind it. -/
theorem dollars_reference (p : Parameter) {rest : Text}
    (hrest : ∀ c ∈ rest.head?, Query.isWord c = false) :
    Query.dollars (p.reference ++ rest) = p.text :: Query.dollars rest :=
  Query.dollars_word p.isWord_text hrest

/-- No two slots are written alike. -/
theorem slot_inj {s s' : Slot} (h : s.text = s'.text) : s = s' := by
  have hhead := congrArg List.head? h
  -- behind the digits of a value nothing follows, and behind those of a default something does
  have hdefault : ∀ {m n : Nat}, Text.ofNat m ≠ Text.ofNat n ++ ("_default" : Text) := by
    intro m n hsame
    have hmem : ('_' : CodePoint) ∈ Text.ofNat m := by
      rw [hsame]
      exact List.mem_append_right _ (by decide)
    exact absurd (isDigit_ofNat hmem) (by decide)
  cases s with
  | id =>
    cases s' with
    | id => rfl
    | key | value | default => exact absurd (Option.some.inj hhead) (by decide)
  | key m =>
    cases s' with
    | key n => rw [ofNat_inj (List.cons.inj h).2]
    | id | value | default => exact absurd (Option.some.inj hhead) (by decide)
  | value m =>
    cases s' with
    | value n => rw [ofNat_inj (List.cons.inj h).2]
    | default n => exact absurd (List.cons.inj h).2 hdefault
    | id | key => exact absurd (Option.some.inj hhead) (by decide)
  | default m =>
    cases s' with
    | default n => rw [ofNat_inj (List.append_cancel_right (List.cons.inj h).2)]
    | value n => exact absurd (List.cons.inj h).2.symm hdefault
    | id | key => exact absurd (Option.some.inj hhead) (by decide)

/-- **No two parameters have the same name.** -/
theorem text_inj {p q : Parameter} (h : p.text = q.text) : p = q := by
  obtain ⟨owner, slot⟩ := p
  obtain ⟨owner', slot'⟩ := q
  simp only [text, Text.concat, List.flatten_cons, List.flatten_nil, List.append_nil] at h
  have hlength : (owner.name : Text).length = (owner'.name : Text).length := by
    cases owner <;> cases owner' <;> rfl
  obtain ⟨hname, hslot⟩ := List.append_inj h hlength
  have howner : owner = owner' := by
    revert hname
    cases owner <;> cases owner' <;> decide
  rw [howner, slot_inj (List.append_cancel_left hslot)]

end Parameter

/-! ## 5. Clauses -/

namespace Clause

open Query (Line Within)

/-- How a clause that finds a node begins. -/
def mergeLead (owner : Alias) : Text := .concat ["MERGE (", owner.name, ":"]

/-- How the clause that finds a relationship begins. -/
def edgeLead : Text :=
  .concat ["MERGE (", Alias.first.name, ")-[", Alias.relationship.name, ":"]

/-- How the clause that finds a relationship ends. -/
def edgeTail : Text := .concat ["]->(", Alias.second.name, ")"]

/-- How a clause that sets a property of an entity begins. -/
def setLead (owner : Alias) : Text := .concat ["SET ", owner.name, "."]

/-- What stands between the two names of an update. -/
def updateMiddle (owner : Alias) : Text := .concat [" = coalesce(", owner.name, "."]

/-- What stands between the default and the value of an update. -/
def updateSign (operation : Arithmetic) : Text := .concat [") ", [operation.sign], " "]

/-- What follows a property in the braces of a node, behind which there are others or not. -/
def keyEnd : List (Text × Slot) → Text
  | [] => "\x7d)"
  | _ :: _ => ", "

/-- The properties in the braces of a node, with what follows them. -/
def keyParts (owner : Alias) : List (Text × Slot) → List (Text × Text)
  | [] => []
  | (name, slot) :: keys =>
    (name, .concat [": ", Parameter.reference ⟨owner, slot⟩, keyEnd keys]) :: keyParts owner keys

/-- The line of a clause, with its names. -/
def line : Clause → Line
  | .mergeNode owner label [] => ⟨mergeLead owner, [(label, ")")]⟩
  | .mergeNode owner label keys => ⟨mergeLead owner, (label, " \x7b") :: keyParts owner keys⟩
  | .mergeRelationship type => ⟨edgeLead, [(type, edgeTail)]⟩
  | .set owner property slot =>
    ⟨setLead owner, [(property, .concat [" = ", Parameter.reference ⟨owner, slot⟩])]⟩
  | .update owner property operation slot default =>
    ⟨setLead owner,
      [(property, updateMiddle owner),
        (property, .concat [", ", Parameter.reference ⟨owner, default⟩, updateSign operation,
          Parameter.reference ⟨owner, slot⟩])]⟩
  | .returning aliases => ⟨"RETURN " ++ Text.join ", " (aliases.map fun a => (a.name : Text)), []⟩

/-- The properties of a node are written as they are in a line. -/
theorem text_keyParts (owner : Alias) : ∀ {keys : List (Text × Slot)}, keys ≠ [] →
    ((keyParts owner keys).flatMap fun (name, tail) => quoteIdentifier name ++ tail)
      = Text.join ", " (keys.map (keyText owner)) ++ "\x7d)"
  | [], hne => absurd rfl hne
  | [(name, slot)], _ => by simp [keyParts, keyEnd, keyText, Text.concat]
  | (name, slot) :: key :: keys, _ => by
    have hrest := text_keyParts owner (List.cons_ne_nil key keys)
    rw [keyParts, List.flatMap_cons, hrest]
    simp [keyEnd, keyText, Text.concat]

/-- **A clause is its line.** -/
theorem text_line (c : Clause) : c.line.text = c.text := by
  cases c with
  | mergeNode owner label keys =>
    cases keys with
    | nil => simp [line, text, Line.text, mergeLead, keysText, Text.concat]
    | cons key keys =>
      have hkeys := text_keyParts owner (List.cons_ne_nil key keys)
      have hbraces : ("\x7d)" : Text) = ("\x7d" : Text) ++ (")" : Text) := rfl
      rw [line, Line.text, List.flatMap_cons, hkeys, text, keysText]
      · simp [mergeLead, Text.concat, hbraces]
      · exact fun h => absurd h (List.cons_ne_nil _ _)
      · exact fun h => absurd h (List.cons_ne_nil _ _)
  | mergeRelationship type => simp [line, text, Line.text, edgeLead, edgeTail, Text.concat]
  | set owner property slot => simp [line, text, Line.text, target, setLead, Text.concat]
  | update owner property operation slot default =>
    simp [line, text, Line.text, target, setLead, updateMiddle, updateSign, Text.concat]
  | returning aliases => simp [line, text, Line.text]

/-- The parameters that a clause refers to. -/
def parameters : Clause → List Parameter
  | .mergeNode owner _ keys => keys.map fun key => ⟨owner, key.2⟩
  | .set owner _ slot => [⟨owner, slot⟩]
  | .update owner _ _ slot default => [⟨owner, default⟩, ⟨owner, slot⟩]
  | _ => []

theorem proper_keyParts (owner : Alias) (keys : List (Text × Slot)) :
    ∀ part ∈ keyParts owner keys, part.2 ≠ [] ∧ Within part.2 := by
  induction keys with
  | nil => exact fun _ hmem => absurd hmem List.not_mem_nil
  | cons key keys ih =>
    refine List.forall_mem_cons.mpr ⟨⟨List.cons_ne_nil _ _, ?_⟩, ih⟩
    have hcolon : Within ": " := by decide
    have hend : Within (keyEnd keys) := by
      cases keys with
      | nil => decide
      | cons key keys => show Within ", "; decide
    simp only [Text.concat, List.flatten_cons, List.flatten_nil, List.append_nil]
    exact hcolon.append ((Parameter.within_reference _).append hend)

theorem within_mergeLead (owner : Alias) : Within (mergeLead owner) := by
  cases owner <;> decide

theorem within_setLead (owner : Alias) : Within (setLead owner) := by
  cases owner <;> decide

theorem within_updateMiddle (owner : Alias) : Within (updateMiddle owner) := by
  cases owner <;> decide

/-- Every clause is written as a line should be. -/
theorem proper_line (c : Clause) : c.line.Proper := by
  cases c with
  | mergeNode owner label keys =>
    have hclose : (")" : Text) ≠ [] ∧ Within ")" := by decide
    have hopen : (" \x7b" : Text) ≠ [] ∧ Within " \x7b" := by decide
    cases keys with
    | nil => exact ⟨within_mergeLead owner, List.forall_mem_singleton.mpr hclose⟩
    | cons key keys =>
      exact ⟨within_mergeLead owner, List.forall_mem_cons.mpr ⟨hopen, proper_keyParts owner _⟩⟩
  | mergeRelationship type =>
    have hlead : Within edgeLead := by decide
    have htail : edgeTail ≠ [] ∧ Within edgeTail := by decide
    exact ⟨hlead, List.forall_mem_singleton.mpr htail⟩
  | set owner property slot =>
    have hequals : Within " = " := by decide
    refine ⟨within_setLead owner, List.forall_mem_singleton.mpr ⟨List.cons_ne_nil _ _, ?_⟩⟩
    simp only [Text.concat, List.flatten_cons, List.flatten_nil, List.append_nil]
    exact hequals.append (Parameter.within_reference _)
  | update owner property operation slot default =>
    have hcomma : Within ", " := by decide
    have hsign : Within (updateSign operation) := by cases operation <;> decide
    refine ⟨within_setLead owner, List.forall_mem_cons.mpr
      ⟨⟨List.cons_ne_nil _ _, within_updateMiddle owner⟩,
        List.forall_mem_singleton.mpr ⟨List.cons_ne_nil _ _, ?_⟩⟩⟩
    simp only [Text.concat, List.flatten_cons, List.flatten_nil, List.append_nil]
    exact hcomma.append ((Parameter.within_reference _).append
      (hsign.append (Parameter.within_reference _)))
  | returning aliases =>
    have hreturn : Within "RETURN " := by decide
    have hcomma : Within ", " := by decide
    refine ⟨hreturn.append (Text.forall_mem_join hcomma fun part hpart => ?_),
      fun _ hmem => absurd hmem List.not_mem_nil⟩
    obtain ⟨owner, _, rfl⟩ := List.mem_map.mp hpart
    cases owner <;> decide

theorem references_keyParts (owner : Alias) (keys : List (Text × Slot)) :
    ((keyParts owner keys).flatMap fun part => Query.dollars part.2)
      = keys.map fun key => Parameter.text ⟨owner, key.2⟩ := by
  induction keys with
  | nil => rfl
  | cons key keys ih =>
    have hcolon : ∀ c ∈ (": " : Text), c ≠ '$' := by decide
    have hend : Query.dollars (Parameter.reference ⟨owner, key.2⟩ ++ keyEnd keys)
        = [Parameter.text ⟨owner, key.2⟩] := by
      cases keys with
      | nil => exact Parameter.dollars_reference _ (by decide)
      | cons next keys =>
        have hcomma : ∀ c ∈ (", " : Text).head?, Query.isWord c = false := by decide
        exact Parameter.dollars_reference _ hcomma
    rw [keyParts, List.flatMap_cons, ih, List.map_cons]
    simp only [Text.concat, List.flatten_cons, List.flatten_nil, List.append_nil]
    rw [Query.dollars_append hcolon, hend]
    rfl

/-- A text without dollar signs refers to nothing. -/
theorem dollars_eq_nil {t : Text} (ht : ∀ c ∈ t, c ≠ '$') : Query.dollars t = [] := by
  have happend := Query.dollars_append ht []
  rwa [List.append_nil] at happend

/-- **A line refers to the parameters of its clause.** -/
theorem references_line (c : Clause) : c.line.references = c.parameters.map Parameter.text := by
  have hset : ∀ owner, Query.dollars (setLead owner) = [] := by
    intro owner
    cases owner <;> decide
  cases c with
  | mergeNode owner label keys =>
    have hlead : Query.dollars (mergeLead owner) = [] := by cases owner <;> decide
    cases keys with
    | nil =>
      rw [line, Line.references, hlead]
      rfl
    | cons key keys =>
      have hkeys := references_keyParts owner (key :: keys)
      rw [line, Line.references, hlead, List.flatMap_cons, hkeys, parameters, List.map_map]
      · rfl
      · exact fun h => absurd h (List.cons_ne_nil _ _)
  | mergeRelationship type => rfl
  | set owner property slot =>
    have hequals : ∀ c ∈ (" = " : Text), c ≠ '$' := by decide
    have hvalue : Query.dollars (Parameter.reference ⟨owner, slot⟩ ++ [])
        = [Parameter.text ⟨owner, slot⟩] := Parameter.dollars_reference _ (by decide)
    rw [line, Line.references, hset, List.flatMap_singleton]
    simp only [Text.concat, List.flatten_cons, List.flatten_nil]
    rw [Query.dollars_append hequals, hvalue]
    rfl
  | update owner property operation slot default =>
    have hmiddle : Query.dollars (updateMiddle owner) = [] := by cases owner <;> decide
    have hcomma : ∀ c ∈ (", " : Text), c ≠ '$' := by decide
    have hvalue : Query.dollars (Parameter.reference ⟨owner, slot⟩ ++ [])
        = [Parameter.text ⟨owner, slot⟩] := Parameter.dollars_reference _ (by decide)
    have hsign : ∀ c ∈ updateSign operation, c ≠ '$' := by cases operation <;> decide
    have hdefault : Query.dollars (Parameter.reference ⟨owner, default⟩ ++
        (updateSign operation ++ (Parameter.reference ⟨owner, slot⟩ ++ []))) =
          [Parameter.text ⟨owner, default⟩, Parameter.text ⟨owner, slot⟩] := by
      have hhead : ∀ c ∈ (updateSign operation ++ (Parameter.reference ⟨owner, slot⟩ ++ [])).head?,
          Query.isWord c = false := by
        intro c hc
        have hclose : c = ')' := (Option.some.inj hc).symm
        rw [hclose]
        decide
      rw [Parameter.dollars_reference ⟨owner, default⟩ hhead, Query.dollars_append hsign, hvalue]
    rw [line, Line.references, hset, List.flatMap_cons, List.flatMap_singleton, hmiddle]
    simp only [Text.concat, List.flatten_cons, List.flatten_nil]
    rw [Query.dollars_append hcomma, hdefault]
    rfl
  | returning aliases =>
    have hreturn : ∀ c ∈ ("RETURN " : Text), c ≠ '$' := by decide
    have hcomma : ∀ c ∈ (", " : Text), c ≠ '$' := by decide
    rw [line, Line.references, Query.dollars_append hreturn,
      dollars_eq_nil (Text.forall_mem_join hcomma fun part hpart => ?_)]
    · rfl
    · obtain ⟨owner, _, rfl⟩ := List.mem_map.mp hpart
      cases owner <;> decide

/-- **The query of clauses has a line for each of them.** -/
theorem lines?_clauses {clauses : List Clause} (hne : clauses ≠ []) :
    Query.lines? (Text.join "\n" (clauses.map text)) = some (clauses.map line) := by
  have htext : clauses.map text = (clauses.map line).map Line.text := by
    rw [List.map_map]
    exact List.map_congr_left fun c _ => c.text_line.symm
  rw [htext]
  refine Query.lines?_join (fun h => hne (List.map_eq_nil_iff.mp h)) fun l hl => ?_
  obtain ⟨c, _, rfl⟩ := List.mem_map.mp hl
  exact c.proper_line

/-- **A query refers to the parameters of its clauses.** -/
theorem references_clauses {clauses : List Clause} (hne : clauses ≠ []) :
    Query.references (Text.join "\n" (clauses.map text))
      = (clauses.flatMap parameters).map Parameter.text := by
  have hlines := List.map_congr_left fun (c : Clause) (_ : c ∈ clauses) => c.references_line
  rw [Query.references, lines?_clauses hne, Option.getD_some, List.flatMap_map, List.map_flatMap]
  exact congrArg List.flatten hlines

end Clause

end GraphFeed
