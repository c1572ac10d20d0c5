import GraphFeed.Proofs.CommandEnd
import GraphFeed.Proofs.Substitution

/-!
# Any command can be written in a template

A command is written in a template with a backslash in front of every backslash and every brace
(`escapeCommand`). Four parts of the expansion look at these backslashes, and each in its own way:

* `hasLive_escaped`: the search for fields looks at the code point before a brace only, and finds no
  brace that is live;
* `scan_escaped`: the scan for the end of the command counts which backslashes are active, and finds
  the last brace;
* `strip_escapeCommand`: no white space is removed at either end;
* `unescapeCommand_escapeCommand`: unescaping is the inverse of escaping, whatever the command holds.

So `commands_of_escaped`: **just the command itself is run**, and its output is the whole result.
-/

namespace GraphFeed

open Buffer (Cell)

/-! ## 1. Escaping -/

/-- A code point that does not stand for itself in a command placeholder. -/
def NeedsEscape (c : CodePoint) : Prop :=
  c = ('\\' : CodePoint) ∨ c = ('{' : CodePoint) ∨ c = ('}' : CodePoint)

instance : DecidablePred NeedsEscape := fun c =>
  inferInstanceAs (Decidable (c = ('\\' : CodePoint) ∨ c = ('{' : CodePoint) ∨
    c = ('}' : CodePoint)))

/-- A code point as it is written in a command placeholder. -/
def escaped (c : CodePoint) : Text := if NeedsEscape c then ['\\', c] else [c]

/-- A command as it is written in a command placeholder. -/
def escapeCommand (command : Text) : Text := command.flatMap escaped

/-- The template that asks for the output of a command and nothing else. -/
def escapedTemplate (command : Text) : Text :=
  ('{' : CodePoint) :: ('!' : CodePoint) :: (escapeCommand command ++ [('}' : CodePoint)])

variable {c : CodePoint} {command : Text}

theorem escapeCommand_cons_special (h : NeedsEscape c) (command : Text) :
    escapeCommand (c :: command) = ('\\' : CodePoint) :: c :: escapeCommand command := by
  rw [escapeCommand, List.flatMap_cons, escaped, if_pos h]
  rfl

theorem escapeCommand_cons_plain (h : ¬NeedsEscape c) (command : Text) :
    escapeCommand (c :: command) = c :: escapeCommand command := by
  rw [escapeCommand, List.flatMap_cons, escaped, if_neg h]
  rfl

theorem ne_of_not_needsEscape (h : ¬NeedsEscape c) :
    c ≠ ('\\' : CodePoint) ∧ c ≠ ('{' : CodePoint) ∧ c ≠ ('}' : CodePoint) :=
  ⟨fun hc => h (.inl hc), fun hc => h (.inr (.inl hc)), fun hc => h (.inr (.inr hc))⟩

/-- **Unescaping is the inverse of escaping.** A line end is never escaped, so that the backslash in
    front of one stands for itself. -/
theorem unescapeCommand_escapeCommand (command : Text) :
    unescapeCommand (escapeCommand command) = command := by
  induction command with
  | nil => rfl
  | cons c command ih =>
    by_cases h : NeedsEscape c
    · have hline : c ≠ ('\n' : CodePoint) := by
        rcases h with rfl | rfl | rfl <;> decide
      rw [escapeCommand_cons_special h, unescapeCommand_backslash hline, ih]
    · rw [escapeCommand_cons_plain h, unescapeCommand_cons (ne_of_not_needsEscape h).1, ih]

/-! ## 2. White space -/

/-- No white space stands at either end. -/
structure Text.Firm (t : Text) : Prop where
  head : ∀ c ∈ t.head?, c.isBlank = false
  last : ∀ c ∈ t.getLast?, c.isBlank = false

theorem dropWhile_isBlank {t : Text} (h : ∀ c ∈ t.head?, c.isBlank = false) :
    t.dropWhile CodePoint.isBlank = t := by
  cases t with
  | nil => rfl
  | cons c t => exact List.dropWhile_cons_of_neg (by rw [h c rfl]; decide)

theorem Text.Firm.strip {t : Text} (h : t.Firm) : t.strip = t := by
  have hlast : ∀ c ∈ t.reverse.head?, c.isBlank = false := by
    rw [List.head?_reverse]
    exact h.last
  rw [Text.strip, Text.stripLeft, dropWhile_isBlank h.head, Text.stripRight, dropWhile_isBlank hlast,
    List.reverse_reverse]

theorem head_escapeCommand (h : ∀ c ∈ command.head?, c.isBlank = false) :
    ∀ c ∈ (escapeCommand command).head?, c.isBlank = false := by
  cases command with
  | nil => exact h
  | cons c command =>
    by_cases hc : NeedsEscape c
    · rw [escapeCommand_cons_special hc]
      rintro d ⟨⟩
      decide
    · rw [escapeCommand_cons_plain hc]
      exact h

theorem getLast_escapeCommand : (escapeCommand command).getLast? = command.getLast? := by
  rcases List.eq_nil_or_concat command with rfl | ⟨front, c, rfl⟩
  · rfl
  · have hlast : (escaped c).getLast? = some c := by
      unfold escaped
      split <;> rfl
    rw [List.concat_eq_append, escapeCommand, List.flatMap_append, List.flatMap_singleton,
      List.getLast?_append, hlast, List.getLast?_append]
    rfl

/-- Escaping puts no white space at an end. -/
theorem strip_escapeCommand (h : command.Firm) :
    (escapeCommand command).strip = escapeCommand command :=
  Text.Firm.strip ⟨head_escapeCommand h.head, by rw [getLast_escapeCommand]; exact h.last⟩

/-! ## 3. The end of the command -/

/-- A scan over an escaped command comes back to the level it began at. -/
theorem overAll_escapeCommand : ∀ command : Text,
    Brace.Level.overAll (Brace.classify · false) ⟨0, false⟩ (escapeCommand command)
      = some ⟨0, false⟩
  | [] => rfl
  | c :: command => by
    by_cases h : NeedsEscape c
    · rw [escapeCommand_cons_special h]
      rcases h with rfl | rfl | rfl <;> exact overAll_escapeCommand command
    · obtain ⟨hslash, hopen, hclose⟩ := ne_of_not_needsEscape h
      have hplain : Brace.classify c false = .plain := by
        rw [Brace.classify, if_neg hslash, if_neg hopen, if_neg hclose]
      rw [escapeCommand_cons_plain h, Brace.overAll_cons, hplain]
      exact overAll_escapeCommand command

/-- In a template every backslash is active. -/
theorem overAll_text : ∀ {cells : List Cell} (l : Brace.Level),
    (∀ d ∈ cells, d.mark = some .trusted) →
      l.overAll Cell.token cells = l.overAll (Brace.classify · false) (Cell.text cells)
  | [], _, _ => rfl
  | d :: cells, l, h => by
    have htoken : d.token = Brace.classify d.char false := by
      rw [Cell.token, h d List.mem_cons_self]
      simp
    rw [Cell.text_cons, Brace.overAll_cons, Brace.overAll_cons, htoken]
    congr 1
    funext l'
    exact overAll_text l' fun e he => h e (List.mem_cons_of_mem d he)

/-- **The command is closed by the last brace.** -/
theorem scan_escaped {interior : List Cell} {close : Cell}
    (htrusted : ∀ d ∈ interior, d.mark = some .trusted)
    (hinterior : Cell.text interior = ('!' : CodePoint) :: escapeCommand command)
    (hclose : close.char = ('}' : CodePoint)) :
    Brace.scan Cell.token 0 false (interior ++ [close]) = .closed interior [] := by
  refine Brace.scan_append_closed (l := ⟨0, false⟩) (Cell.token_closing hclose) ?_
  rw [overAll_text _ htrusted, hinterior]
  exact overAll_escapeCommand command

/-! ## 4. No fields -/

/-- A brace behind a backslash of the template is not live. -/
theorem live_behind_backslash {phase : Phase} {slash d : Cell} {next : Option Cell}
    (hslash : slash.char = ('\\' : CodePoint)) (htrusted : slash.mark = some .trusted) :
    phase.live (some slash) d next = false := by
  by_cases hd : d.char = ('{' : CodePoint)
  · have hescaped : unescapedAfter (some slash) = .ok false := by
      simp [unescapedAfter, hslash, htrusted]
    cases next with
    | none => simp [Phase.live, Phase.isLive, hd]
    | some next => simp [Phase.live, Phase.isLive, hd, hescaped]
  · exact Phase.live_eq_false_of_ne hd

/-- **No brace of an escaped command is live.** -/
theorem hasLive_escaped {phase : Phase} {q : Cell → Bool} : ∀ {command : Text} {cells : List Cell}
    {before : Option Cell}, (∀ d ∈ cells, d.mark = some .trusted) →
      Cell.text cells = escapeCommand command ++ [('}' : CodePoint)] →
        phase.hasLive q before cells = false
  | [], cells, before, htrusted, htext => by
    obtain ⟨d, rest, rfl, hd, hrest⟩ := List.map_eq_cons_iff.mp htext
    obtain rfl := List.map_eq_nil_iff.mp hrest
    rw [Phase.hasLive, Phase.live_eq_false_of_ne (by rw [hd]; decide)]
    rfl
  | c :: command, cells, before, htrusted, htext => by
    by_cases h : NeedsEscape c
    · rw [escapeCommand_cons_special h] at htext
      obtain ⟨slash, rest, rfl, hslash, hrest⟩ := List.map_eq_cons_iff.mp htext
      obtain ⟨d, rest, rfl, hd, hrest⟩ := List.map_eq_cons_iff.mp hrest
      rw [Phase.hasLive, Phase.live_eq_false_of_ne (by rw [hslash]; decide), Phase.hasLive,
        live_behind_backslash hslash (htrusted slash List.mem_cons_self)]
      exact hasLive_escaped
        (fun e he => htrusted e (List.mem_cons_of_mem _ (List.mem_cons_of_mem _ he))) hrest
    · rw [escapeCommand_cons_plain h] at htext
      obtain ⟨d, rest, rfl, hd, hrest⟩ := List.map_eq_cons_iff.mp htext
      rw [Phase.hasLive, Phase.live_eq_false_of_ne (by rw [hd]; exact (ne_of_not_needsEscape h).2.1)]
      exact hasLive_escaped (fun e he => htrusted e (List.mem_cons_of_mem _ he)) hrest

/-! ## 5. The expansion -/

/-- The cells of the template: the brace, the interior and the last brace. -/
theorem exists_cells_escaped (command : Text) : ∃ brace bang inner close,
    Cell.ofTemplate (escapedTemplate command) = brace :: bang :: (inner ++ [close]) ∧
      brace.char = ('{' : CodePoint) ∧ bang.char = ('!' : CodePoint) ∧
      Cell.text inner = escapeCommand command ∧ close.char = ('}' : CodePoint) ∧
      ∀ d ∈ brace :: bang :: (inner ++ [close]), d.mark = some .trusted := by
  obtain ⟨brace, rest, hcells, hbrace, hrest⟩ :=
    List.map_eq_cons_iff.mp (Cell.text_ofTemplate (escapedTemplate command))
  obtain ⟨bang, rest, rfl, hbang, hrest⟩ := List.map_eq_cons_iff.mp hrest
  obtain ⟨inner, close, back, rfl, hinner, hclose, hback⟩ := Cell.split_text hrest
  obtain rfl := List.map_eq_nil_iff.mp hback
  refine ⟨brace, bang, inner, close, hcells, hbrace, hbang, hinner, hclose, fun d hd => ?_⟩
  rw [← hcells] at hd
  exact Cell.trusted_ofTemplate d hd

/-- The phase of fields leaves the template as it is. -/
theorem settle_escaped (s : Splitter) (record : Record) (command : Text) :
    (settle (fieldFiller s record) [] (Cell.ofTemplate (escapedTemplate command))).state
        = Cell.ofTemplate (escapedTemplate command) ∧
      (settle (fieldFiller s record) [] (Cell.ofTemplate (escapedTemplate command))).error
        = none := by
  obtain ⟨brace, bang, inner, close, hcells, hbrace, hbang, hinner, hclose, htrusted⟩ :=
    exists_cells_escaped command
  have hcalm : ∀ q,
      Phase.fields.hasLive q none (Cell.ofTemplate (escapedTemplate command)) = false := by
    intro q
    have hopen : Phase.fields.live none brace (some bang) = false := by
      rw [Phase.live, Phase.isLive_unescaped (by simp) hbrace, hbang]
      rfl
    have hinside : Cell.text (inner ++ [close]) = escapeCommand command ++ [('}' : CodePoint)] := by
      rw [Cell.text_append, hinner, Cell.text_cons, hclose]
      rfl
    rw [hcells, Phase.hasLive, List.head?_cons, hopen, Phase.hasLive,
      Phase.live_eq_false_of_ne (by rw [hbang]; decide)]
    exact hasLive_escaped
      (fun d hd => htrusted d (List.mem_cons_of_mem _ (List.mem_cons_of_mem _ hd))) hinside
  obtain ⟨hstate, herror⟩ := @settle_of_noTemplate (fieldFiller s record) [] _
    (Cell.allMarked_ofTemplate (escapedTemplate command)) (hcalm _)
  exact ⟨hstate.trans (guarded_of_calm (hcalm _)), herror⟩

/-- What a placeholder is filled with holds no guard. -/
theorem unguarded_resolved (t : Text) :
    Cell.unguarded (Cell.ofText .resolved t) = Cell.ofText .resolved t := by
  refine List.filter_eq_self.mpr fun d hd => ?_
  obtain ⟨c, _, rfl⟩ := List.mem_map.mp hd
  rfl

/-- **Any command can be written in a template.** If no white space stands at either end of a
    command, then the template that holds it, with a backslash in front of every backslash and every
    brace, has just this command run, whatever the record; its output, or its failure, is the
    result. -/
theorem commands_of_escaped (s : Splitter) (runner : Runner) (record : Record)
    (hcommand : command.Firm) :
    (expand s runner (escapedTemplate command) record).commands = [command] ∧
      (expand s runner (escapedTemplate command) record).result
        = (runner 0 command).map Output.inlined := by
  obtain ⟨hstate, herror⟩ := settle_escaped s record command
  obtain ⟨hcommands, hresult⟩ := @expand_of_ok s runner _ record _ herror hstate
  rw [hcommands, hresult]
  obtain ⟨brace, bang, inner, close, hcells, hbrace, hbang, hinner, hclose, htrusted⟩ :=
    exists_cells_escaped command
  have hmark := htrusted brace List.mem_cons_self
  have hinterior : Cell.text (bang :: inner) = ('!' : CodePoint) :: escapeCommand command := by
    rw [Cell.text_cons, hbang, hinner]
  have hinner' : ∀ d ∈ bang :: inner, d.mark = some .trusted := fun d hd =>
    htrusted d (List.mem_cons_of_mem _ (List.mem_append_left [close] hd))
  have hscan := scan_escaped hinner' hinterior hclose
  have hlive : Phase.commands.isLive none brace (some bang) = .ok true := by
    rw [Phase.isLive_unescaped (by simp) hbrace, hbang]
    rfl
  -- the interior is the command with its backslashes, and they are taken out
  have hof : commandOf (bang :: inner) = command := by
    rw [commandOf, List.drop_one, List.tail_cons, hinner, strip_escapeCommand hcommand,
      unescapeCommand_escapeCommand]
  rw [hcells, ← List.cons_append]
  cases hrun : runner 0 command with
  | error e =>
    have hfill : (commandFiller runner).fill 0 brace (bang :: inner)
        = ([.running brace (bang :: inner) command], .error e) := by
      simp only [commandFiller, hof, hrun]
    rw [sweep_fail hlive (resolveBrace_refused .commands [] hmark hscan hfill)]
    exact ⟨rfl, rfl⟩
  | ok o =>
    have hfill : (commandFiller runner).fill 0 brace (bang :: inner)
        = ([.running brace (bang :: inner) command, .answered o], .ok (.data o.inlined)) := by
      simp only [commandFiller, hof, hrun]
    rw [sweep_resolve hlive (resolveBrace_fill .commands [] hmark hscan hfill), Filling.put,
      sweep_nil, List.append_nil, List.reverse_reverse]
    refine ⟨rfl, ?_⟩
    show Except.ok (Cell.text (Cell.unguarded (Cell.ofText .resolved o.inlined))) = _
    rw [unguarded_resolved, Cell.text_ofText]
    rfl

/-- Backslashes in front of a brace, of a line end and at the end of a command. -/
theorem commands_of_escaped_backslashes :
    let command : Text := ['{', 'a', '\\', '}', '\\', '\n', '\\']
    command.Firm ∧
      (expand .standard repeating (escapedTemplate command) []).commands = [command] ∧
      (expand .standard repeating (escapedTemplate command) []).result
        = (repeating 0 command).map Output.inlined := by
  intro command
  have hfirm : command.Firm := ⟨by decide, by decide⟩
  exact ⟨hfirm, commands_of_escaped .standard repeating [] hfirm⟩

end GraphFeed
