import GraphFeed.Proofs.PropertyReading

/-!
# Entities are read from their pieces

What is behind an id or an entity is not taken for a part of it (`Spelling.Behind`, `Spelling.Ended`), so
that ids, entities and instructions are read piece by piece.

* An id is read with the property that holds it, and without (`Spelling.readKey_plain`,
  `Spelling.readKey_named`).
* An entity is read if its id and its properties are (`Spelling.readEntity_push`), and three entities
  with blanks between them are read as a connection (`Spelling.readInstruction_connect`).
-/

namespace GraphFeed

open Lexeme (push cut isWord dropBlank)

namespace Spelling

/-! ## 1. What comes behind -/

/-- What can come behind an entity: nothing, or a blank and something else than a sign. -/
def Ended (rest : List Lexeme) : Prop :=
  rest = [] ∨ ∃ l ls, rest = .blank :: l :: ls ∧ isWord l = true

/-- What can come behind an id: the end of the entity, or a list of properties. -/
def Behind (rest : List Lexeme) : Prop := ∀ l ∈ rest.head?, l = .blank ∨ l = .sign '('

theorem Ended.behind {rest : List Lexeme} (h : Ended rest) : Behind rest := by
  rcases h with rfl | ⟨l, ls, rfl, _⟩
  · exact nofun
  · rintro _ ⟨⟩
    exact .inl rfl

theorem Ended.dropBlank_ne {rest after : List Lexeme} {c : CodePoint} (h : Ended rest) :
    dropBlank rest ≠ .sign c :: after := by
  rcases h with rfl | ⟨l, ls, rfl, hl⟩
  · exact nofun
  · intro hsign
    have hsame : l :: ls = .sign c :: after := hsign
    cases hsame
    cases hl

/-- A sign behind blanks is not taken for a run of a word before it. -/
theorem head_gap_sign (g : Gap) (c : CodePoint) (rest : List Lexeme) :
    ∀ l ∈ (cut g.pieces (.sign c :: rest)).head?, l = .blank ∨ l = .sign c := by
  rcases g.pieces_eq with h | h
  · rw [h]
    rintro _ ⟨⟩
    exact .inr rfl
  · rw [h]
    rintro _ ⟨⟩
    exact .inl rfl

theorem Behind.notRun {rest : List Lexeme} (h : Behind rest) :
    ∀ l ∈ rest.head?, Parsing.isRun l = false := by
  intro l hl
  rcases h l hl with rfl | rfl
  · rfl
  · rfl

/-- No sign but the opening one comes behind an id. -/
theorem Behind.ne {c : CodePoint} {rest : List Lexeme} (h : Behind (.sign c :: rest)) : c = '(' := by
  rcases h _ rfl with hblank | hsign
  · cases hblank
  · exact Lexeme.sign.inj hsign

/-! ## 2. Ids and entities -/

section Parts

variable {l m : Lexeme} {t u : Token} {rest ls ks inside : List Lexeme} {key? : Option ParseTree.Key}
  {ps : List ParseTree.Property}

theorem readKey_plain (after : Gap) (hl : l.token? = some t) (h : Behind rest) :
    Parsing.readKey (cut after.pieces (push l rest)) = some (.plain t, rest) := by
  rw [Parsing.readKey, dropBlank_word after hl, readToken_word hl h.notRun]
  cases rest with
  | nil => rfl
  | cons l rest =>
    cases l with
    | sign c =>
      have hc : c ≠ '=' := by
        rw [h.ne]
        decide
      exact if_neg hc
    | bare | quoted | blank => rfl

theorem readKey_named (after : Gap) (hl : l.token? = some t) (hm : m.token? = some u)
    (h : Behind rest) :
    Parsing.readKey (cut after.pieces (push l (.sign '=' :: push m rest)))
      = some (.named t u, rest) := by
  have hequals : ∀ x ∈ (Lexeme.sign '=' :: push m rest).head?, Parsing.isRun x = false := by
    rintro _ ⟨⟩
    rfl
  rw [Parsing.readKey, dropBlank_word after hl, readToken_word hl hequals]
  dsimp only
  rw [if_pos rfl, readToken_word hm h.notRun]
  rfl

/-- The lexemes are those of properties before the rest, if there are any, which are read so. -/
inductive ListRead (rest : List Lexeme) : List Lexeme → List ParseTree.Property → Prop
  | absent : ListRead rest rest []
  | given (before : Gap) {inside : List Lexeme} {ps : List ParseTree.Property}
      (h : Parsing.readProperties inside = some (ps, rest)) :
      ListRead rest (cut before.pieces (.sign '(' :: inside)) ps

/-- The lexemes are those of an id before others, if there is one, which is read so. -/
inductive KeyRead (ls : List Lexeme) : List Lexeme → Option ParseTree.Key → Prop
  | absent : KeyRead ls ls none
  | given (before : Gap) {inside : List Lexeme} {key : ParseTree.Key}
      (h : Parsing.readKey inside = some (key, ls)) :
      KeyRead ls (cut before.pieces (.sign ':' :: inside)) (some key)

/-- Properties, or what comes behind the entity, can come behind an id. -/
theorem ListRead.behind (h : ListRead rest ls ps) (hend : Ended rest) : Behind ls := by
  cases h with
  | absent => exact hend.behind
  | given before => exact head_gap_sign _ _ _

theorem ListRead.readProperties? (h : ListRead rest ls ps) (hend : Ended rest) :
    Parsing.readProperties? ls = some (ps, rest) := by
  unfold Parsing.readProperties?
  cases h with
  | absent =>
    split
    · rename_i c after hdrop
      exact absurd hdrop hend.dropBlank_ne
    · rfl
  | given before h =>
    rw [dropBlank_sign]
    dsimp only
    rwa [if_pos rfl]

/-- They are read as no id. -/
theorem ListRead.readKey? (h : ListRead rest ls ps) (hend : Ended rest) :
    Parsing.readKey? ls = some (none, ls) := by
  unfold Parsing.readKey?
  cases h with
  | absent =>
    split
    · rename_i c after hdrop
      exact absurd hdrop hend.dropBlank_ne
    · rfl
  | given before h =>
    rw [dropBlank_sign]
    exact if_neg (by decide)

theorem KeyRead.notRun (h : KeyRead ls ks key?) (hls : Behind ls) :
    ∀ x ∈ ks.head?, Parsing.isRun x = false := by
  cases h with
  | absent => exact hls.notRun
  | given before =>
    intro x hx
    rcases head_gap_sign _ _ _ x hx with rfl | rfl
    · rfl
    · rfl

/-- **An entity is read** by its name, its id and its properties. -/
theorem readEntity_push (hl : l.token? = some t) (hkey : KeyRead ls ks key?)
    (hlist : ListRead rest ls ps) (hend : Ended rest) :
    Parsing.readEntity (push l ks) = some (⟨t, key?, ps⟩, rest) := by
  have hread : Parsing.readKey? ks = some (key?, ls) := by
    cases hkey with
    | absent => exact hlist.readKey? hend
    | given before h =>
      rw [Parsing.readKey?, dropBlank_sign]
      dsimp only
      rw [if_pos rfl, h]
      rfl
  rw [Parsing.readEntity, readToken_word hl (hkey.notRun (hlist.behind hend))]
  dsimp only
  rw [hread]
  dsimp only
  rw [hlist.readProperties? hend]
  rfl

end Parts

/-! ## 3. Instructions -/

/-- Blanks before a word end what is before them. -/
theorem cut_space (space : Space) {l : Lexeme} {t : Token} (hl : l.token? = some t)
    (ls : List Lexeme) :
    cut space.pieces (push l ls) = .blank :: push l ls ∧ Ended (.blank :: push l ls) := by
  obtain ⟨m, rest, hpush, hblank, hword⟩ := exists_push_word hl ls
  rw [hpush, space.pieces_eq]
  refine ⟨?_, .inr ⟨m, rest, rfl, hword⟩⟩
  cases m with
  | blank => exact absurd rfl hblank
  | bare | quoted | sign => rfl

/-- **Three entities with blanks between them are read as a connection.** -/
theorem readInstruction_connect {left relationship right : ParseTree.Entity}
    {ls ls' ls'' : List Lexeme} (hleft : Parsing.readEntity ls = some (left, .blank :: ls'))
    (hrelationship : Parsing.readEntity ls' = some (relationship, .blank :: ls''))
    (hright : Parsing.readEntity ls'' = some (right, [])) :
    Parsing.readInstruction ls = some (.connect left relationship right) := by
  rw [Parsing.readInstruction, hleft]
  dsimp only
  rw [Parsing.readNext, hrelationship]
  dsimp only
  rw [Parsing.readNext, hright]

end Spelling

end GraphFeed
