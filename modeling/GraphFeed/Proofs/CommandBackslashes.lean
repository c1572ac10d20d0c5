import GraphFeed.Proofs.CommandEnd

/-!
# Backslashes of data in a command

Where an expansion looks for braces, a backslash of data is an ordinary code point. A command is
taken out of the buffer as a text, though, and in a text it cannot be told which backslashes are of
data: `unescapeCommand` removes them all, but those before a line end and at the end.

`command_of_backslashes` says what is left of a value with backslashes, and no braces, in a command:

* the value does not move the end of the command, wherever its backslashes are
  (`CommandCells.scan_filled`), so that one command is run: the interior with the value for the
  field, unescaped;
* this is the interior itself exactly if there is nothing to unescape in it
  (`unescapeCommand_eq_self_iff`).
-/

namespace GraphFeed

open Buffer (Cell)

/-! ## 1. What unescaping leaves -/

/-- Every backslash of the text is the last code point or stands before a line end. -/
def Text.NothingEscaped (t : Text) : Prop :=
  ∀ front c back, t = front ++ ('\\' : CodePoint) :: c :: back → c = ('\n' : CodePoint)

namespace Text.NothingEscaped

theorem short {t : Text} (h : t.length ≤ 1) : NothingEscaped t := by
  rintro front c back rfl
  simp only [List.length_append, List.length_cons] at h
  omega

theorem cons_iff {c d : CodePoint} {t : Text} :
    NothingEscaped (c :: d :: t) ↔
      (c = ('\\' : CodePoint) → d = ('\n' : CodePoint)) ∧ NothingEscaped (d :: t) := by
  constructor
  · intro h
    refine ⟨fun hc => h [] d t (by rw [hc]; rfl), fun front e back heq => ?_⟩
    exact h (c :: front) e back (by rw [heq]; rfl)
  · rintro ⟨hc, hrest⟩ front e back heq
    cases front with
    | nil =>
      obtain ⟨rfl, htail⟩ := List.cons.inj heq
      obtain ⟨rfl, _⟩ := List.cons.inj htail
      exact hc rfl
    | cons x front => exact hrest front e back (List.cons.inj heq).2

end Text.NothingEscaped

theorem length_unescapeCommand_le (t : Text) : (unescapeCommand t).length ≤ t.length := by
  fun_induction unescapeCommand t with
  | case1 => exact Nat.le_refl _
  | case2 => exact Nat.le_refl _
  | case3 c d t _ ih =>
    simp only [List.length_cons]
    omega
  | case4 c d t _ ih =>
    simp only [List.length_cons] at ih ⊢
    omega

/-- **A command is as it was written exactly if there is nothing to unescape in it.** -/
theorem unescapeCommand_eq_self_iff (t : Text) : unescapeCommand t = t ↔ t.NothingEscaped := by
  fun_induction unescapeCommand t with
  | case1 => exact ⟨fun _ => .short (Nat.zero_le _), fun _ => rfl⟩
  | case2 c => exact ⟨fun _ => .short (Nat.le_refl _), fun _ => rfl⟩
  | case3 c d t hc ih =>
    -- the text gets shorter
    have hlength := length_unescapeCommand_le t
    constructor
    · intro heq
      have hsame := congrArg List.length heq
      simp only [List.length_cons] at hsame
      omega
    · intro h
      exact absurd ((Text.NothingEscaped.cons_iff.mp h).1 hc.1) hc.2
  | case4 c d t hc ih =>
    have hline : c = ('\\' : CodePoint) → d = ('\n' : CodePoint) := fun hslash =>
      Decidable.byContradiction fun hd => hc ⟨hslash, hd⟩
    rw [Text.NothingEscaped.cons_iff, ← ih]
    constructor
    · intro heq
      exact ⟨hline, (List.cons.inj heq).2⟩
    · rintro ⟨_, heq⟩
      rw [heq]

/-! ## 2. Values without braces -/

/-- A text without braces; it may have backslashes. -/
def Text.NoBrace (t : Text) : Prop := ∀ c ∈ t, c ≠ ('{' : CodePoint) ∧ c ≠ ('}' : CodePoint)

instance (t : Text) : Decidable t.NoBrace :=
  inferInstanceAs (Decidable (∀ c ∈ t, c ≠ ('{' : CodePoint) ∧ c ≠ ('}' : CodePoint)))

namespace Text.NoBrace

variable {v : Text}

theorem ne_opening (h : NoBrace v) : ∀ c ∈ Cell.ofText .resolved v, c.char ≠ ('{' : CodePoint) := by
  intro c hc
  obtain ⟨x, hx, rfl⟩ := List.mem_map.mp hc
  exact (h x hx).1

/-- To the scan for a closing brace, data without braces is plain: a backslash of data is not
    active. -/
theorem token (h : NoBrace v) : ∀ c ∈ Cell.ofText .resolved v, c.token = .plain := by
  intro c hc
  obtain ⟨x, hx, rfl⟩ := List.mem_map.mp hc
  obtain ⟨hopen, hclose⟩ := h x hx
  by_cases hslash : x = ('\\' : CodePoint)
  · rw [hslash]
    rfl
  · exact Cell.token_plain hslash hopen hclose

end Text.NoBrace

/-- A scan passes plain cells. -/
theorem overAll_plain : ∀ {cells : List Cell} {depth : Nat}, (∀ c ∈ cells, c.token = .plain) →
    Brace.Level.overAll Cell.token ⟨depth, false⟩ cells = some ⟨depth, false⟩
  | [], _, _ => rfl
  | c :: cells, depth, h => by
    rw [Brace.overAll_cons, h c List.mem_cons_self]
    exact overAll_plain fun d hd => h d (List.mem_cons_of_mem c hd)

namespace CommandCells

variable {pre a b post v : Text} {n : Nat} (k : CommandCells pre a n b post)

/-- A value without braces gets no guard. -/
theorem guarded_noBrace (hpre : Text.Inert pre) (ha : Text.Inert a) (hb : Text.Inert b)
    (hpost : Text.Inert post) (hv : v.NoBrace) :
    guarded .fields none (k.filled (Cell.ofText .resolved v)) = k.filled (Cell.ofText .resolved v) := by
  have hbrace : Phase.fields.live (k.front.getLast?.or none) k.brace (some k.bang) = false := by
    rw [Option.or_none, ← List.head?_reverse, Phase.live, k.isLive_brace hpre]
    rfl
  have hbehind : ∀ c ∈ k.bang :: (k.inner ++ (Cell.ofText .resolved v ++ (k.tail ++ k.close :: k.rest))),
      c.char ≠ ('{' : CodePoint) := by
    rw [← List.cons_append]
    refine List.forall_mem_append.mpr ⟨k.ne_opening_inner ha, ?_⟩
    exact List.forall_mem_append.mpr ⟨hv.ne_opening, k.ne_opening_behind hb hpost⟩
  rw [filled, guarded_append (k.ne_opening_front hpre), guarded_cons hbrace,
    guarded_of_noBrace hbehind]

/-- The phase of fields puts in the value as it is. -/
theorem settle_noBrace (hpre : Text.Inert pre) (ha : Text.Inert a) (hb : Text.Inert b)
    (hpost : Text.Inert post) (hv : v.NoBrace) {s : Splitter} {record : Record}
    (hvalue : record[n]? = some v) (hne : v ≠ [])
    (hlen : (Text.ofNat (n + 1)).length ≤ maxIntegerDigits)
    (hk : Cell.ofTemplate (commandTemplate pre a n b post) = k.cells) :
    (GraphFeed.settle (fieldFiller s record) []
        (Cell.ofTemplate (commandTemplate pre a n b post))).error = none ∧
      (GraphFeed.settle (fieldFiller s record) []
        (Cell.ofTemplate (commandTemplate pre a n b post))).state
        = k.filled (Cell.ofText .resolved v) := by
  obtain ⟨hstate, herror⟩ := k.sweep_fields (s := s) hpre ha hb hpost hvalue hne hlen
  have hmarked := Cell.allMarked_ofTemplate (commandTemplate pre a n b post)
  rw [hk] at hmarked ⊢
  obtain ⟨hsettled, hok⟩ := settle_of_ok [] (fieldFiller_keeps_mark s record) hmarked herror
  rw [hsettled, hstate, k.guarded_noBrace hpre ha hb hpost hv]
  exact ⟨hok, rfl⟩

/-- **A value without braces does not move the end of the command.** -/
theorem scan_filled (ha : Text.Inert a) (hb : Text.Inert b) (hv : v.NoBrace) :
    Brace.scan Cell.token 0 false
        (k.bang :: (k.inner ++ (Cell.ofText .resolved v ++ (k.tail ++ k.close :: k.rest))))
      = .closed (k.bang :: (k.inner ++ (Cell.ofText .resolved v ++ k.tail))) k.rest := by
  have hbang : k.bang.token = .plain := by
    refine Cell.token_plain ?_ ?_ ?_
    all_goals
      rw [k.char_bang]
      decide
  rw [← k.text_inner] at ha
  rw [← k.text_tail] at hb
  have hplain : ∀ c ∈ k.bang :: (k.inner ++ (Cell.ofText .resolved v ++ k.tail)), c.token = .plain := by
    refine List.forall_mem_cons.mpr ⟨hbang, List.forall_mem_append.mpr ⟨fun c hc => ha.token hc, ?_⟩⟩
    exact List.forall_mem_append.mpr ⟨hv.token, fun c hc => hb.token hc⟩
  exact (Brace.scan_eq_closed_iff (l := ⟨0, false⟩)).mpr
    ⟨k.close, by simp, Cell.token_closing k.char_close, overAll_plain hplain⟩

/-- The command in the interior. -/
theorem commandOf_filled (v : Text) :
    commandOf (k.bang :: (k.inner ++ (Cell.ofText .resolved v ++ k.tail)))
      = unescapeCommand (Text.strip (a ++ v ++ b)) := by
  rw [commandOf, List.drop_one, List.tail_cons, Cell.text_append, Cell.text_append, Cell.text_ofText,
    k.text_inner, k.text_tail, List.append_assoc]

end CommandCells

/-! ## 3. What is run -/

section Run

variable (s : Splitter) (runner : Runner) (record : Record) {pre a b post v : Text} {n : Nat}

/-- **One command is run**: the interior with the value for the field, unescaped. -/
theorem commands_of_noBrace (hpre : pre.Inert) (ha : a.Inert) (hb : b.Inert) (hpost : post.Inert)
    (hvalue : record[n]? = some v) (hne : v ≠ []) (hv : v.NoBrace)
    (hlen : (Text.ofNat (n + 1)).length ≤ maxIntegerDigits) :
    (expand s runner (commandTemplate pre a n b post) record).commands
      = [unescapeCommand (Text.strip (a ++ v ++ b))] := by
  obtain ⟨k, hk⟩ := CommandCells.exists_cells pre a n b post
  obtain ⟨hok, hstate⟩ := k.settle_noBrace (s := s) hpre ha hb hpost hv hvalue hne hlen hk
  have hcommands := (k.expand_of_closed hpre hpost runner hok hstate (k.scan_filled ha hb hv)).1
  rwa [k.commandOf_filled] at hcommands

/-- **A backslash of data may escape in a command.** In a command placeholder with one field in it,
    let the value of the field have no braces, and let there be no other braces and backslashes.
    Unless the field number is too long to be read, one command is run: the interior with the value
    for the field, without the backslashes that escape something. So it is run with every backslash
    in its place exactly if each of them is the last code point or stands before a line end. -/
theorem command_of_backslashes (hpre : pre.Inert) (ha : a.Inert) (hb : b.Inert) (hpost : post.Inert)
    (hvalue : record[n]? = some v) (hne : v ≠ []) (hv : v.NoBrace) :
    ((Text.ofNat (n + 1)).length ≤ maxIntegerDigits →
      (expand s runner (commandTemplate pre a n b post) record).commands
        = [unescapeCommand (Text.strip (a ++ v ++ b))]) ∧
    ((expand s runner (commandTemplate pre a n b post) record).commands
        = [Text.strip (a ++ v ++ b)] ↔
      (Text.strip (a ++ v ++ b)).NothingEscaped ∧
        (Text.ofNat (n + 1)).length ≤ maxIntegerDigits) := by
  have hrun := commands_of_noBrace s runner record hpre ha hb hpost hvalue hne hv
  refine ⟨hrun, ?_⟩
  rw [← unescapeCommand_eq_self_iff]
  constructor
  · intro hcommands
    have hlen : (Text.ofNat (n + 1)).length ≤ maxIntegerDigits := by
      refine Decidable.byContradiction fun hlen => ?_
      rw [commands_of_longNumber hpre ha s runner record hlen] at hcommands
      cases hcommands
    rw [hrun hlen] at hcommands
    exact ⟨(List.cons.inj hcommands).1, hlen⟩
  · rintro ⟨hsame, hlen⟩
    rw [hrun hlen, hsame]

end Run

/-- What is run for `a{! {1}.}b` and a value that ends with two backslashes, the first of which
    escapes the second. -/
theorem command_of_backslashes_double :
    let v : Text := ['x', '\\', '\\']
    Text.Inert "a" ∧ Text.Inert " " ∧ Text.Inert "." ∧ Text.Inert "b" ∧ [v][0]? = some v ∧ v ≠ [] ∧
    v.NoBrace ∧
    ((Text.ofNat (0 + 1)).length ≤ maxIntegerDigits →
      (expand .standard repeating (commandTemplate "a" " " 0 "." "b") [v]).commands
        = [unescapeCommand (Text.strip (" " ++ v ++ "."))]) ∧
    ((expand .standard repeating (commandTemplate "a" " " 0 "." "b") [v]).commands
        = [Text.strip (" " ++ v ++ ".")] ↔
      (Text.strip (" " ++ v ++ ".")).NothingEscaped ∧
        (Text.ofNat (0 + 1)).length ≤ maxIntegerDigits) :=
  ⟨by decide, by decide, by decide, by decide, by decide, by decide, by decide,
    command_of_backslashes .standard repeating [['x', '\\', '\\']] (by decide) (by decide)
      (by decide) (by decide) (by decide) (by decide) (by decide)⟩

/-- **A backslash of data can be lost**: with `a\b` for the field of `{!echo {1}}`, the command is not
    `echo a\b`. -/
theorem backslash_lost :
    let v : Text := ['a', '\\', 'b']
    Text.Inert [] ∧ Text.Inert "echo " ∧ [v][0]? = some v ∧ v ≠ [] ∧ v.NoBrace ∧
    (expand .standard repeating (commandTemplate [] "echo " 0 [] []) [v]).commands
      ≠ [Text.strip ("echo " ++ v ++ ([] : Text))] := by
  have hpre : Text.Inert [] := by decide
  have ha : Text.Inert "echo " := by decide
  have hcommands := commands_of_noBrace .standard repeating [['a', '\\', 'b']] hpre ha hpre hpre
    (show [_][0]? = some _ from rfl) (by decide) (by decide) (by decide)
  refine ⟨hpre, ha, by decide, by decide, by decide, ?_⟩
  rw [hcommands]
  decide

end GraphFeed
