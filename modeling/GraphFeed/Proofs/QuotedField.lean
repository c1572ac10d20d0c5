import GraphFeed.Proofs.CommandEnd
import GraphFeed.Proofs.SpellingReading

/-!
# A value between quote marks

A template that has the placeholder of a field between quote marks, as `File:"{1}"`, is expanded to
the value between the marks, whatever braces and backslashes are in it (`result_of_field`). Reading
the instruction then decodes the escapes of the value as if they stood in the template
(`read_quotedFile`).

* `Lexeme.closing?_append`: the mark behind the value closes it exactly if the value ends with an even
  number of backslashes. Otherwise the last backslash escapes the mark, and nothing can be read.
* `Quotation.decode_eq_self_iff`: the value is decoded to itself exactly if no backslash in it begins
  an escape.

So a value is carried into the id of an entity as it is exactly if no backslash of it begins an escape
or ends it (`quoted_field_iff`).
-/

namespace GraphFeed

open Buffer (Cell)

/-! ## 1. A value in the place of a field -/

/-- A template with a placeholder for field `n + 1` in it. -/
def fieldTemplate (pre : Text) (n : Nat) (post : Text) : Text :=
  pre ++ ('{' : CodePoint) :: (Text.ofNat (n + 1) ++ ('}' : CodePoint) :: post)

/-- The cell is no opening brace of the template. -/
def NoTemplateBrace (c : Cell) : Prop := c.char = ('{' : CodePoint) → c.mark ≠ some .trusted

theorem noTemplateBrace_of_ne {c : Cell} (h : c.char ≠ ('{' : CodePoint)) : NoTemplateBrace c :=
  fun hc => absurd hc h

theorem noTemplateBrace_data (v : Text) : ∀ c ∈ Cell.ofText .resolved v, NoTemplateBrace c := by
  intro c hc _
  obtain ⟨x, _, rfl⟩ := List.mem_map.mp hc
  exact nofun

/-- Without an opening brace of the template, none is live. -/
theorem hasLive_of_noTemplateBrace (phase : Phase) : ∀ {cells : List Cell} {before : Option Cell},
    (∀ c ∈ cells, NoTemplateBrace c) → phase.hasLive Phase.ofTemplate before cells = false
  | [], _, _ => rfl
  | c :: rest, before, h => by
    refine Bool.or_eq_false_iff.mpr
      ⟨?_, hasLive_of_noTemplateBrace phase fun d hd => h d (List.mem_cons_of_mem _ hd)⟩
    by_cases hc : c.char = ('{' : CodePoint)
    · have hmark : Phase.ofTemplate c = false := decide_eq_false (h c List.mem_cons_self hc)
      rw [hmark, Bool.and_false]
    · rw [Phase.live_eq_false_of_ne hc, Bool.false_and]

/-- What has no guards is all there without guards. -/
theorem unguarded_eq_self {cells : List Cell} (h : ∀ c ∈ cells, c.mark ≠ some .guarding) :
    Cell.unguarded cells = cells :=
  List.filter_eq_self.mpr fun c hc => decide_eq_true (h c hc)

/-- **Where the first sweep leaves no opening brace of the template, the text it leaves is the
    result.** All that comes after it are guards, which are taken out again. -/
theorem result_of_filled (s : Splitter) (runner : Runner) {template : Text} {record : Record}
    {filled : List Cell}
    (hstate : (sweep .fields (fieldFiller s record) [] 0 [] (Cell.ofTemplate template)).state = filled)
    (herror : (sweep .fields (fieldFiller s record) [] 0 [] (Cell.ofTemplate template)).error = none)
    (hmark : ∀ c ∈ filled, c.mark = some .trusted ∨ c.mark = some .resolved)
    (hbraces : ∀ c ∈ filled, NoTemplateBrace c) :
    (expand s runner template record).result = .ok (Cell.text filled) := by
  have hmarked : Cell.AllMarked filled := by
    intro c hc
    rcases hmark c hc with hm | hm
    · rw [hm]
      rfl
    · rw [hm]
      rfl
  obtain ⟨hsettled, hok⟩ := settle_of_ok [] (fieldFiller_keeps_mark s record)
    (Cell.allMarked_ofTemplate _) herror
  rw [hstate] at hsettled
  have hguardedBraces : ∀ c ∈ guarded .fields none filled, NoTemplateBrace c :=
    forall_guarded (noTemplateBrace_of_ne (by decide)) hbraces
  obtain ⟨hswept, hnone⟩ := sweep_of_noTemplate .commands (commandFiller runner) [] 0 []
    (guarded .fields none filled) (by simp) (allMarked_guarded hmarked)
    (hasLive_of_noTemplateBrace .commands hguardedBraces)
  have hkept : Cell.unguarded filled = filled := by
    refine unguarded_eq_self fun c hc => ?_
    rcases hmark c hc with hm | hm
    · rw [hm]
      decide
    · rw [hm]
      decide
  rw [(expand_of_ok hok hsettled).2, Progress.outcome, hnone, hswept]
  dsimp only [Except.map]
  rw [List.reverse_nil, List.nil_append, unguarded_guarded, unguarded_guarded, hkept]

section Field

variable {pre post v : Text} {n : Nat} {s : Splitter} {record : Record}

/-- **The first sweep puts in the value.** -/
theorem sweep_field (hpre : pre.Inert) (hpost : post.Inert) (hvalue : record[n]? = some v)
    (hne : v ≠ []) (hlen : (Text.ofNat (n + 1)).length ≤ maxIntegerDigits) :
    ∃ front back : List Cell, Cell.text front = pre ∧ Cell.text back = post ∧
      (∀ c ∈ front ++ back, c.mark = some .trusted) ∧
      (sweep .fields (fieldFiller s record) [] 0 []
          (Cell.ofTemplate (fieldTemplate pre n post))).state
        = front ++ (Cell.ofText .resolved v ++ back) ∧
      (sweep .fields (fieldFiller s record) [] 0 []
          (Cell.ofTemplate (fieldTemplate pre n post))).error = none := by
  obtain ⟨front, brace, inside, hcells, hfront, hbrace, hinside⟩ :=
    Cell.split_text (Cell.text_ofTemplate (fieldTemplate pre n post))
  obtain ⟨digits, close, back, rfl, hdigits, hclose, hback⟩ := Cell.split_text hinside
  have htrusted : ∀ c ∈ front ++ brace :: (digits ++ close :: back), c.mark = some .trusted := by
    rw [← hcells]
    exact Cell.trusted_ofTemplate
  rw [← hfront] at hpre
  rw [← hback] at hpost
  have hbefore : ∀ c ∈ (front.reverse ++ []).head?, c.char ≠ ('\\' : CodePoint) := by
    rw [List.append_nil]
    exact fun c hc => hpre.ne_backslash (List.mem_reverse.mp (List.mem_of_mem_head? hc))
  obtain ⟨hstate, herror⟩ := sweep_value (s := s) hbrace (htrusted brace (by simp)) hdigits hclose
    hbefore (fun c hc => hpost.ne_opening hc) hvalue hne hlen
  rw [hcells, sweep_passAll fun c hc => hpre.ne_opening hc, hstate, herror]
  refine ⟨front, back, hfront, hback, fun c hc => htrusted c ?_, ?_, rfl⟩
  · rcases List.mem_append.mp hc with hc | hc
    · exact List.mem_append_left _ hc
    · simp [hc]
  · simp

/-- **A field of a template is expanded to its value**, whatever is in the value. -/
theorem result_of_field (s : Splitter) (runner : Runner) (hpre : pre.Inert) (hpost : post.Inert)
    (hvalue : record[n]? = some v) (hne : v ≠ [])
    (hlen : (Text.ofNat (n + 1)).length ≤ maxIntegerDigits) :
    (expand s runner (fieldTemplate pre n post) record).result = .ok (pre ++ v ++ post) := by
  obtain ⟨front, back, rfl, rfl, htrusted, hstate, herror⟩ :=
    sweep_field (s := s) hpre hpost hvalue hne hlen
  have hmark : ∀ c ∈ front ++ (Cell.ofText .resolved v ++ back),
      c.mark = some .trusted ∨ c.mark = some .resolved := by
    refine List.forall_mem_append.mpr ⟨fun c hc => .inl (htrusted c (List.mem_append_left _ hc)), ?_⟩
    exact List.forall_mem_append.mpr ⟨fun c hc => .inr (Cell.mark_of_mem_ofText hc),
      fun c hc => .inl (htrusted c (List.mem_append_right _ hc))⟩
  have hbraces : ∀ c ∈ front ++ (Cell.ofText .resolved v ++ back), NoTemplateBrace c := by
    refine List.forall_mem_append.mpr ⟨fun c hc => noTemplateBrace_of_ne (hpre.ne_opening hc), ?_⟩
    exact List.forall_mem_append.mpr ⟨noTemplateBrace_data v,
      fun c hc => noTemplateBrace_of_ne (hpost.ne_opening hc)⟩
  rw [result_of_filled s runner hstate herror hmark hbraces, Cell.text_append, Cell.text_append,
    Cell.text_ofText, List.append_assoc]

end Field

/-! ## 2. What closes a quoted value -/

/-- How many backslashes a text ends with. -/
def Text.backslashesAtEnd (t : Text) : Nat := (t.reverse.takeWhile (· = ('\\' : CodePoint))).length

namespace Text

theorem backslashesAtEnd_le (t : Text) : t.backslashesAtEnd ≤ t.length := by
  have hlength := (List.takeWhile_sublist (fun c : CodePoint => decide (c = '\\')) (l := t.reverse)).length_le
  rwa [List.length_reverse] at hlength

/-- One code point more counts if it is a backslash, and all behind it are. -/
theorem backslashesAtEnd_cons (c : CodePoint) (t : Text) :
    backslashesAtEnd (c :: t)
      = if c = '\\' ∧ t.backslashesAtEnd = t.length then t.backslashesAtEnd + 1
        else t.backslashesAtEnd := by
  unfold backslashesAtEnd
  rw [List.reverse_cons, List.takeWhile_append, List.length_reverse]
  by_cases hall : (t.reverse.takeWhile (· = ('\\' : CodePoint))).length = t.length
  · by_cases hc : c = '\\'
    · rw [if_pos hall, if_pos ⟨hc, hall⟩, List.length_append, List.length_reverse, hall, hc]
      rfl
    · rw [if_pos hall, if_neg fun h => hc h.1, List.length_append, List.length_reverse, hall,
        List.takeWhile_cons_of_neg (by simpa using hc)]
      rfl
  · rw [if_neg hall, if_neg fun h => hall h.2]

theorem backslashesAtEnd_of_ne {c : CodePoint} (hc : c ≠ '\\') (t : Text) :
    backslashesAtEnd (c :: t) = t.backslashesAtEnd := by
  rw [backslashesAtEnd_cons, if_neg fun h => hc h.1]

/-- There are none exactly if the last code point is no backslash. -/
theorem backslashesAtEnd_eq_zero_iff {t : Text} :
    t.backslashesAtEnd = 0 ↔ t.getLast? ≠ some ('\\' : CodePoint) := by
  rw [backslashesAtEnd, List.length_eq_zero_iff, List.getLast?_eq_head?_reverse]
  cases t.reverse with
  | nil => simp
  | cons c rest => simp [List.takeWhile_cons]

/-- A backslash and what it escapes do not change whether the number is even. -/
theorem backslashesAtEnd_escape (d : CodePoint) (t : Text) :
    backslashesAtEnd ('\\' :: d :: t) % 2 = t.backslashesAtEnd % 2 := by
  have hle := t.backslashesAtEnd_le
  rw [backslashesAtEnd_cons, backslashesAtEnd_cons d, List.length_cons]
  by_cases hd : d = '\\' ∧ t.backslashesAtEnd = t.length
  · rw [if_pos hd, if_pos ⟨rfl, by omega⟩]
    omega
  · rw [if_neg hd, if_neg (by omega)]

end Text

namespace Lexeme

variable {mark : CodePoint}

/-- **A mark behind a text closes it**, unless the text ends with a backslash that escapes the mark. -/
theorem closing?_append (hmark : isMark mark = true) : ∀ {v : Text}, mark ∉ v → ('\n' : CodePoint) ∉ v →
    closing? mark (v ++ [mark]) = if v.backslashesAtEnd % 2 = 0 then some (v, []) else none
  | [], _, _ => closing?_mark []
  | [c], hv, hline => by
    have hc : c ≠ mark := fun h => hv (by simp [h])
    have hcl : c ≠ '\n' := fun h => hline (by simp [h])
    by_cases hslash : c = '\\'
    · have hend : mark ≠ '\n' := by
        rcases eq_of_isMark hmark with rfl | rfl
        · decide
        · decide
      rw [hslash, List.singleton_append, closing?_escape hmark hend]
      rfl
    · rw [List.singleton_append, closing?_plain hc hcl hslash, closing?_mark,
        Text.backslashesAtEnd_of_ne hslash]
      rfl
  | c :: d :: v, hv, hline => by
    have hc : c ≠ mark := fun h => hv (by simp [h])
    have hcl : c ≠ '\n' := fun h => hline (by simp [h])
    have hd : d ≠ '\n' := fun h => hline (by simp [h])
    by_cases hslash : c = '\\'
    · have ih := closing?_append hmark (v := v) (fun h => hv (by simp [h])) fun h => hline (by simp [h])
      rw [hslash, List.cons_append, List.cons_append, closing?_escape hmark hd, ih,
        Text.backslashesAtEnd_escape]
      split
      · rfl
      · rfl
    · have ih := closing?_append hmark (v := d :: v) (fun h => hv (List.mem_cons_of_mem _ h))
        fun h => hline (List.mem_cons_of_mem _ h)
      rw [List.cons_append, closing?_plain hc hcl hslash, ih, Text.backslashesAtEnd_of_ne hslash]
      split
      · rfl
      · rfl

end Lexeme

/-! ## 3. What decoding leaves -/

/-- A backslash in front of the text stands for itself. -/
def Quotation.Kept : Text → Prop
  | [] => True
  | d :: back => d = '\n' ∨ (short? d = none ∧ (d = 'u' → fourHex? back = none))

/-- No backslash of the text begins an escape. -/
def Text.EscapesNothing (t : Text) : Prop :=
  ∀ front back, t = front ++ ('\\' : CodePoint) :: back → Quotation.Kept back

instance (t : Text) : Decidable (Quotation.Kept t) :=
  match t with
  | [] => inferInstanceAs (Decidable True)
  | d :: back =>
    inferInstanceAs (Decidable
      (d = '\n' ∨ (Quotation.short? d = none ∧ (d = 'u' → Quotation.fourHex? back = none))))

namespace Text.EscapesNothing

variable {c d : CodePoint} {t : Text}

theorem nil : EscapesNothing [] := by
  intro front back heq
  cases front <;> cases heq

theorem cons_iff : EscapesNothing (c :: t) ↔ (c = '\\' → Quotation.Kept t) ∧ EscapesNothing t := by
  constructor
  · intro h
    refine ⟨fun hc => h [] t (by rw [hc]; rfl), fun front back heq => ?_⟩
    exact h (c :: front) back (by rw [heq]; rfl)
  · rintro ⟨hc, hrest⟩ front back heq
    cases front with
    | nil =>
      obtain ⟨rfl, rfl⟩ := List.cons.inj heq
      exact hc rfl
    | cons x front => exact hrest front back (List.cons.inj heq).2

instance decidable : ∀ t : Text, Decidable t.EscapesNothing
  | [] => isTrue nil
  | c :: t =>
    have := decidable t
    decidable_of_iff ((c = '\\' → Quotation.Kept t) ∧ EscapesNothing t) cons_iff.symm

/-- What makes no escape with a backslash is no backslash. -/
theorem ne_backslash (h : Quotation.Kept (d :: t)) : d ≠ '\\' := by
  rintro rfl
  rcases h with hline | ⟨hshort, _⟩
  · cases hline
  · cases hshort

/-- A backslash that stands for itself, and what is behind it, count for nothing. -/
theorem kept_iff (h : Quotation.Kept (d :: t)) : EscapesNothing (c :: d :: t) ↔ EscapesNothing t := by
  rw [cons_iff, cons_iff]
  exact ⟨fun hall => hall.2.2, fun ht => ⟨fun _ => h, fun hd => absurd hd (ne_backslash h), ht⟩⟩

/-- A text that escapes nothing ends with one backslash at most. -/
theorem backslashesAtEnd_le_one : ∀ {t : Text}, EscapesNothing t → t.backslashesAtEnd ≤ 1
  | [], _ => Nat.zero_le _
  | [c], _ => Text.backslashesAtEnd_le [c]
  | c :: d :: t, h => by
    obtain ⟨hc, ht⟩ := cons_iff.mp h
    have ih := backslashesAtEnd_le_one ht
    rw [backslashesAtEnd_cons]
    split
    · rename_i hall
      -- the two backslashes would make an escape
      have hd := ne_backslash (hc hall.1)
      have hle := Text.backslashesAtEnd_le t
      have hlength := hall.2
      rw [backslashesAtEnd_of_ne hd, List.length_cons] at hlength
      omega
    · exact ih

end Text.EscapesNothing

namespace Quotation

variable {c d : CodePoint} {t : Text}

/-- Where an escape may begin, there is a backslash, and no line end behind it. -/
theorem of_escape (h : ¬(c ≠ '\\' ∨ d = '\n')) : c = '\\' ∧ d ≠ '\n' :=
  ⟨Decidable.byContradiction fun hc => h (.inl hc), fun hd => h (.inr hd)⟩

theorem length_decode_le (t : Text) : (decode t).length ≤ t.length := by
  fun_induction decode t with
  | case1 => exact Nat.le_refl _
  | case2 => exact Nat.le_refl _
  | case3 c d rest _ ih =>
    simp only [List.length_cons] at ih ⊢
    omega
  | case4 c rest n _ _ ih =>
    simp only [List.length_cons, List.length_drop] at ih ⊢
    omega
  | case5 c rest _ _ ih =>
    simp only [List.length_cons]
    omega
  | case6 c d rest _ _ e _ ih =>
    simp only [List.length_cons]
    omega
  | case7 c d rest _ _ _ ih =>
    simp only [List.length_cons]
    omega

/-- **A text is decoded to itself exactly if no backslash of it begins an escape.** -/
theorem decode_eq_self_iff (t : Text) : decode t = t ↔ t.EscapesNothing := by
  fun_induction decode t with
  | case1 => exact ⟨fun _ => .nil, fun _ => rfl⟩
  | case2 c => exact ⟨fun _ => Text.EscapesNothing.cons_iff.mpr ⟨fun _ => trivial, .nil⟩, fun _ => rfl⟩
  | case3 c d rest hc ih =>
    have hkept : c = '\\' → Kept (d :: rest) := fun hslash => .inl (hc.resolve_left fun hne => hne hslash)
    rw [Text.EscapesNothing.cons_iff, ← ih]
    exact ⟨fun heq => ⟨hkept, (List.cons.inj heq).2⟩, fun h => by rw [h.2]⟩
  | case4 c rest n hn hc ih =>
    -- six code points have become one
    have hlength := length_decode_le (rest.drop 4)
    obtain ⟨hslash, hline⟩ := of_escape hc
    constructor
    · intro heq
      have hsame := congrArg List.length heq
      simp only [List.length_cons, List.length_drop] at hsame hlength
      omega
    · intro h
      rcases (Text.EscapesNothing.cons_iff.mp h).1 hslash with hu | ⟨_, hnone⟩
      · exact absurd hu hline
      · rw [hnone rfl] at hn
        cases hn
  | case5 c rest hn hc ih =>
    have hkept : Kept ('u' :: rest) := .inr ⟨rfl, fun _ => hn⟩
    rw [Text.EscapesNothing.kept_iff hkept, ← ih]
    exact ⟨fun heq => (List.cons.inj (List.cons.inj heq).2).2, fun heq => by rw [heq]⟩
  | case6 c d rest hc hu e he ih =>
    have hlength := length_decode_le rest
    obtain ⟨hslash, hline⟩ := of_escape hc
    constructor
    · intro heq
      have hsame := congrArg List.length heq
      simp only [List.length_cons] at hsame
      omega
    · intro h
      rcases (Text.EscapesNothing.cons_iff.mp h).1 hslash with hd | ⟨hnone, _⟩
      · exact absurd hd hline
      · rw [hnone] at he
        cases he
  | case7 c d rest hc hu hnone ih =>
    have hkept : Kept (d :: rest) := .inr ⟨hnone, fun hd => absurd hd hu⟩
    rw [Text.EscapesNothing.kept_iff hkept, ← ih]
    exact ⟨fun heq => (List.cons.inj (List.cons.inj heq).2).2, fun heq => by rw [heq]⟩

end Quotation

/-! ## 4. The id of an entity -/

/-- The instruction that inserts an entity with an id, and says nothing else about it. -/
def Instruction.identified (name id : Text) : Instruction :=
  .insert ⟨name, Entity.defaultMergeOn, some id, []⟩

/-- A text between quote marks, as the id of a `File`. -/
def quotedFile (v : Text) : Text := Text.ofString "File:\"" ++ (v ++ [('"' : CodePoint)])

section QuotedFile

variable {v : Text}

theorem strip_quotedFile (v : Text) : (quotedFile v).strip = quotedFile v := by
  have hbegins : Text.BeginsFirm (quotedFile v) := ⟨'F', _, rfl, rfl⟩
  have hends : Text.EndsFirm (quotedFile v) :=
    ⟨Text.ofString "File:\"" ++ v, '"', (List.append_assoc _ _ _).symm, rfl⟩
  have hconcat : Text.concat [[], quotedFile v, []] = quotedFile v := List.append_nil _
  have hstrip := Text.strip_between (a := []) (b := []) (by simp) (by simp) hbegins hends
  rwa [hconcat] at hstrip

/-- The text between the marks is a lexeme with them, if the mark behind it closes it. -/
theorem ofText?_quotedFile (hmark : ('"' : CodePoint) ∉ v) (hline : ('\n' : CodePoint) ∉ v) :
    Lexeme.ofText? (quotedFile v) = if v.backslashesAtEnd % 2 = 0 then
      some [.bare (Text.ofString "File"), .sign ':', .quoted ('"' :: (v ++ [('"' : CodePoint)]))]
    else none := by
  let closed : Text := v ++ [('"' : CodePoint)]
  let quoted : Text := ('"' : CodePoint) :: closed
  have hname : Lexeme.first? (quotedFile v)
      = some (.bare (Text.ofString "File"), (':' : CodePoint) :: quoted) := rfl
  have hcolon : Lexeme.first? ((':' : CodePoint) :: quoted) = some (.sign ':', quoted) := rfl
  have hvalue : Lexeme.first? quoted = (Lexeme.closing? '"' closed).map
      fun x => (.quoted ('"' :: (x.1 ++ [('"' : CodePoint)])), x.2) := rfl
  rw [Lexeme.closing?_append rfl hmark hline] at hvalue
  rw [Lexeme.ofText?_of_first hname, Lexeme.ofText?_of_first hcolon]
  by_cases heven : v.backslashesAtEnd % 2 = 0
  · rw [if_pos heven] at hvalue ⊢
    rw [Lexeme.ofText?_of_first hvalue, Lexeme.ofText?_nil]
    rfl
  · rw [if_neg heven] at hvalue ⊢
    rw [Lexeme.ofText?_of_none (List.cons_ne_nil _ _) hvalue]
    rfl

variable {parser : Parser} (h : parser.AcceptsGrammar)

include h

/-- So any parser finds the text with its marks as the id, or nothing. -/
theorem parser_quotedFile (hmark : ('"' : CodePoint) ∉ v) (hline : ('\n' : CodePoint) ∉ v) :
    parser (quotedFile v) = if v.backslashesAtEnd % 2 = 0 then
      some (.insert ⟨.bare "File", some (.plain (.quoted ('"' :: (v ++ [('"' : CodePoint)])))), []⟩)
    else none := by
  have hlexemes := ofText?_quotedFile hmark hline
  by_cases heven : v.backslashesAtEnd % 2 = 0
  · rw [if_pos heven] at hlexemes ⊢
    have hfound : Parser.ofLexemes (quotedFile v) = some (.insert
        ⟨.bare "File", some (.plain (.quoted ('"' :: (v ++ [('"' : CodePoint)])))), []⟩) := by
      rw [Parser.ofLexemes, hlexemes]
      rfl
    exact h.eq_some_of_plain (Parser.derives_of_ofLexemes hfound) fun _ hp => absurd hp List.not_mem_nil
  · rw [if_neg heven] at hlexemes ⊢
    have hnone : Parser.ofLexemes (quotedFile v) = none := by
      rw [Parser.ofLexemes, hlexemes]
      rfl
    exact h.none_iff.mpr (Parser.ofLexemes_acceptsGrammar.none_iff.mp hnone)

/-- **A quoted value is read as the id with its escapes decoded**, if the mark behind it closes it. -/
theorem read_quotedFile (hmark : ('"' : CodePoint) ∉ v) (hline : ('\n' : CodePoint) ∉ v) :
    Instruction.read parser (quotedFile v) = if v.backslashesAtEnd % 2 = 0 then
      .ok (.identified (Text.ofString "File") (Quotation.decode v))
    else .error (.noReading (quotedFile v)) := by
  have hsome : ¬(quotedFile v).isEmpty = true := nofun
  rw [Instruction.read, strip_quotedFile, if_neg hsome, parser_quotedFile h hmark hline]
  by_cases heven : v.backslashesAtEnd % 2 = 0
  · rw [if_pos heven, if_pos heven, ← unquote_marked '"' '"' v]
    rfl
  · rw [if_neg heven, if_neg heven]

/-- **What is read is the value itself exactly if no backslash of it begins an escape or ends it.** -/
theorem read_quotedFile_iff (hmark : ('"' : CodePoint) ∉ v) (hline : ('\n' : CodePoint) ∉ v) :
    (∃ left, Instruction.read parser (quotedFile v) = .ok (.insert left) ∧
        left.name = "File" ∧ left.id = some v) ↔
      v.EscapesNothing ∧ v.getLast? ≠ some ('\\' : CodePoint) := by
  rw [read_quotedFile h hmark hline, ← Quotation.decode_eq_self_iff,
    ← Text.backslashesAtEnd_eq_zero_iff]
  constructor
  · rintro ⟨left, hok, -, hid⟩
    split at hok
    · rename_i heven
      cases hok
      have hsame : Quotation.decode v = v := Option.some.inj hid
      -- an even number that is one at most
      have hfew := Text.EscapesNothing.backslashesAtEnd_le_one
        ((Quotation.decode_eq_self_iff v).mp hsame)
      exact ⟨hsame, by omega⟩
    · cases hok
  · rintro ⟨hsame, hzero⟩
    rw [if_pos (by rw [hzero]), hsame]
    exact ⟨_, rfl, rfl, rfl⟩

omit h

/-- The template with the field between quote marks is expanded to the value between them. -/
theorem expand_quotedFile (s : Splitter) (runner : Runner) (hne : v ≠ []) :
    (expand s runner "File:\"{1}\"" [v]).result = .ok (quotedFile v) := by
  have hpre : Text.Inert "File:\"" := by decide
  have hpost : Text.Inert "\"" := by decide
  change (expand s runner (fieldTemplate "File:\"" 0 "\"") [v]).result = _
  exact result_of_field s runner hpre hpost rfl hne (by decide)

end QuotedFile

/-- **A value is carried into the id as it is exactly if no backslash of it begins an escape or ends
    it**, with any parser that accepts the grammar. The template is expanded to the value between the
    marks. What is read from that is the value with its escapes decoded, unless its last backslash
    escapes the closing mark. -/
theorem quoted_field_iff (s : Splitter) (runner : Runner) (parser : Parser)
    (h : parser.AcceptsGrammar) {v : Text} (hne : v ≠ []) (hmark : ('"' : CodePoint) ∉ v)
    (hline : ('\n' : CodePoint) ∉ v) :
    let written := (expand s runner "File:\"{1}\"" [v]).result
    written = .ok (quotedFile v) ∧
    written.bind (Instruction.read parser) = (if v.backslashesAtEnd % 2 = 0 then
      .ok (.identified "File" (Quotation.decode v)) else .error (.noReading (quotedFile v))) ∧
    ((∃ left, written.bind (Instruction.read parser) = .ok (.insert left) ∧
        left.name = "File" ∧ left.id = some v) ↔
      v.EscapesNothing ∧ v.getLast? ≠ some ('\\' : CodePoint)) := by
  dsimp only
  rw [expand_quotedFile s runner hne]
  exact ⟨rfl, read_quotedFile h hmark hline, read_quotedFile_iff h hmark hline⟩

/-- The value `a\q{!b}`, which has a backslash and the braces of a command, is the id as it is. -/
theorem quoted_field_commandBraces :
    let v : Text := "a\\q\x7b!b\x7d"
    Parser.ofLexemes.AcceptsGrammar ∧ v ≠ [] ∧ ('"' : CodePoint) ∉ v ∧ ('\n' : CodePoint) ∉ v ∧
    v.EscapesNothing ∧ v.getLast? ≠ some ('\\' : CodePoint) ∧
    ∃ left, (expand .standard repeating "File:\"{1}\"" [v]).result.bind (Instruction.read .ofLexemes)
      = .ok (.insert left) ∧ left.name = "File" ∧ left.id = some v := by
  intro v
  have hne : v ≠ [] := by decide
  have hmark : ('"' : CodePoint) ∉ v := by decide
  have hline : ('\n' : CodePoint) ∉ v := by decide
  have hescapes : v.EscapesNothing := by decide
  have hlast : v.getLast? ≠ some ('\\' : CodePoint) := by decide
  have h := Parser.ofLexemes_acceptsGrammar
  exact ⟨h, hne, hmark, hline, hescapes, hlast,
    (quoted_field_iff .standard repeating .ofLexemes h hne hmark hline).2.2.mpr ⟨hescapes, hlast⟩⟩

/-- **A backslash of a value can make another id**: `C:\new` between the marks is read by no parser as
    an id that is `C:\new`, for the `n` behind the backslash makes a line end. -/
theorem quoted_backslash_decoded :
    let v : Text := "C:\\new"
    v ≠ [] ∧ ('"' : CodePoint) ∉ v ∧ ('\n' : CodePoint) ∉ v ∧
    ∀ parser : Parser, parser.AcceptsGrammar →
      ¬∃ left, (expand .standard repeating "File:\"{1}\"" [v]).result.bind (Instruction.read parser)
        = .ok (.insert left) ∧ left.name = "File" ∧ left.id = some v := by
  intro v
  have hmark : ('"' : CodePoint) ∉ v := by decide
  have hline : ('\n' : CodePoint) ∉ v := by decide
  refine ⟨by decide, hmark, hline, fun parser h => ?_⟩
  rw [expand_quotedFile .standard repeating (by decide)]
  intro hread
  have hescapes : v.EscapesNothing := ((read_quotedFile_iff h hmark hline).mp hread).1
  exact absurd hescapes (by decide)

end GraphFeed
