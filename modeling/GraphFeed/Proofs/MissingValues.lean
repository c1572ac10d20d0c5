import GraphFeed.Proofs.FieldReading
import GraphFeed.Template.Filling

/-!
# Missing values

A placeholder has no value where the fields it names are empty, and where a split step begins past
the last part. As an empty text has no parts, whatever gets empty before the last step is missing
behind it. What the last step leaves is not looked at: it may be empty, and then the empty text or
its digest takes the place of the placeholder, and not the fallback (`value_last_part`).

* `Placeholder.cut`: what fields and splits leave of a record, before it is put into upper case and
  hashed. Neither makes a text empty (`Text.upper_eq_nil`, `Sha1.hex_ne_nil`);
* `Placeholder.EndsInNothing`: the last step leaves nothing. This is the only way to an empty text
  (`cut_eq_empty_iff`);
* `value_present_iff`: **a placeholder has a value of some length or none at all** unless it ends in
  nothing.
-/

namespace GraphFeed

/-! ## 1. Empty texts -/

/-- Joined by a separator, parts are an empty text only where there is no part, or a single empty
    one. -/
theorem Text.join_eq_nil {separator : Text} (hs : separator ≠ []) :
    ∀ {parts : List Text}, join separator parts = [] ↔ parts = [] ∨ parts = [[]]
  | [] => by simp
  | [part] => by simp
  | a :: b :: rest => by
    rw [join_cons_cons, List.append_eq_nil_iff, List.append_eq_nil_iff]
    exact ⟨fun h => absurd h.1.2 hs, by rintro (h | h) <;> cases h⟩

/-- Every letter has an upper case, be it several letters. -/
theorem CodePoint.upper_ne_nil (c : CodePoint) : c.upper ≠ [] := by
  have hspecial : ∀ entry ∈ upperSpecial, entry.2 ≠ [] := by decide +kernel
  unfold CodePoint.upper
  split
  · split <;> exact List.cons_ne_nil _ _
  · split
    · rename_i letters hletters
      obtain ⟨before, after, hentry, -⟩ := List.lookup_eq_some_iff.mp hletters
      have hmem : (c.val, letters) ∈ upperSpecial := by
        rw [hentry]
        exact List.mem_append_right _ List.mem_cons_self
      exact fun h => hspecial _ hmem (List.map_eq_nil_iff.mp h)
    · split <;> exact List.cons_ne_nil _ _

/-- In upper case, a text is empty only if it was before. -/
theorem Text.upper_eq_nil {t : Text} : t.upper = [] ↔ t = [] := by
  cases t with
  | nil => exact ⟨fun _ => rfl, fun _ => rfl⟩
  | cons c t =>
    rw [upper, List.flatMap_cons, List.append_eq_nil_iff]
    exact ⟨fun h => absurd h.1 c.upper_ne_nil, nofun⟩

theorem Text.length_hex_ge (width n : Nat) : width ≤ (Text.hex width n).length := by
  rw [hex, List.length_append, List.length_replicate]
  omega

/-- No digest is empty. -/
theorem Sha1.hex_ne_nil (message : Bytes) : Sha1.hex message ≠ [] := by
  unfold hex
  dsimp only
  generalize absorb _ _ _ = s
  rw [List.flatMap_cons]
  have hword : 8 ≤ (Text.hex 8 s.a.toNat).length := Text.length_hex_ge ..
  refine List.ne_nil_of_length_pos ?_
  rw [List.length_append]
  omega

/-- **A text has a digest** unless there are surrogates in it, and the digest is not empty. -/
theorem digest_cases (t : Text) :
    ((∀ c ∈ t, c.isSurrogate = false) ∧ ∃ hex, digest t = .ok hex ∧ hex ≠ []) ∨
      (¬(∀ c ∈ t, c.isSurrogate = false) ∧ ∃ e, digest t = .error e) := by
  unfold digest Utf8.encode
  cases hfind : t.findIdx? CodePoint.isSurrogate with
  | none => exact .inl ⟨List.findIdx?_eq_none_iff.mp hfind, _, rfl, Sha1.hex_ne_nil _⟩
  | some i =>
    refine .inr ⟨fun h => ?_, _, rfl⟩
    rw [List.findIdx?_eq_none_iff.mpr h] at hfind
    cases hfind

/-! ## 2. Ranges -/

/-- The range counts items from 1 on. -/
structure ItemRange.Counted (r : ItemRange) : Prop where
  first : 1 ≤ r.first
  last : ∀ n ∈ r.last, 1 ≤ n

/-- The range begins at one of the parts, but it takes none of them or only an empty one. -/
structure ItemRange.TakesNothing (r : ItemRange) (parts : List Text) : Prop where
  begins : r.first ≤ parts.length
  empty : (∃ last ∈ r.last, last < r.first) ∨ Span.slice parts (r.first - 1) r.last = [[]]

/-- A range that begins at an item takes none only if it ends before it begins. -/
theorem ItemRange.Counted.slice_eq_nil {r : ItemRange} (h : r.Counted) {parts : List Text}
    (hbegins : r.first ≤ parts.length) :
    Span.slice parts (r.first - 1) r.last = [] ↔ ∃ last ∈ r.last, last < r.first := by
  obtain ⟨first, last⟩ := r
  obtain ⟨hfirst, hlast⟩ := h
  dsimp only at hfirst hlast hbegins ⊢
  have hstart : Span.clamp parts.length (first - 1) = (first - 1).toNat := by
    unfold Span.clamp
    split <;> omega
  unfold Span.slice
  rw [List.drop_eq_nil_iff, List.length_take, hstart]
  cases last with
  | none =>
    simp only [Option.mem_def, reduceCtorEq, false_and, exists_false, iff_false]
    omega
  | some n =>
    have hn : 1 ≤ n := hlast n rfl
    have hstop : Span.clamp parts.length n = min n.toNat parts.length := by
      unfold Span.clamp
      exact if_neg (by omega)
    simp only [Option.mem_def, Option.some.injEq, exists_eq_left', hstop]
    omega

/-- **The parts in a range, joined, are an empty text** just where the range takes nothing. -/
theorem ItemRange.Counted.join_slice_eq_nil {r : ItemRange} (h : r.Counted) {d : CodePoint}
    {parts : List Text} :
    r.first ≤ parts.length ∧ Text.join [d] (Span.slice parts (r.first - 1) r.last) = []
      ↔ r.TakesNothing parts := by
  have hjoin : ∀ taken, Text.join [d] taken = [] ↔ taken = [] ∨ taken = [[]] :=
    fun _ => Text.join_eq_nil (List.cons_ne_nil _ _)
  constructor
  · rintro ⟨hbegins, hempty⟩
    exact ⟨hbegins, ((hjoin _).mp hempty).imp_left (h.slice_eq_nil hbegins).mp⟩
  · rintro ⟨hbegins, hempty⟩
    exact ⟨hbegins, (hjoin _).mpr (hempty.imp_left (h.slice_eq_nil hbegins).mpr)⟩

namespace Placeholder

theorem RangeForm.counted (a : RangeForm) : a.meaning.Counted := by
  have hone : ∀ n : Numeral, (1 : Int) ≤ n.value := fun n => Int.ofNat_le.mpr n.positive
  cases a with
  | one n => exact ⟨hone n, fun _ h => Option.some.inj h ▸ hone n⟩
  | upTo last => exact ⟨Int.le_refl 1, fun _ h => Option.some.inj h ▸ hone last⟩
  | between first last => exact ⟨hone first, fun _ h => Option.some.inj h ▸ hone last⟩
  | onward first => exact ⟨hone first, nofun⟩

/-- What is read counts from 1 on, and splits at single code points. -/
theorem steps_of_parse {t : Text} {p : Placeholder} (h : parse t = .ok p) :
    ∀ step ∈ p.steps, (∃ d, step.delimiter = [d]) ∧ step.range.Counted := by
  have hread := read_answers t
  rw [parse] at h
  cases hr : read t with
  | error refusal =>
    rw [hr] at h
    cases h
  | ok q =>
    rw [hr] at h hread
    obtain rfl : q = p := Except.ok.inj h
    obtain ⟨r, rfl, -⟩ := hread
    intro step hstep
    obtain ⟨form, -, rfl⟩ := List.mem_map.mp hstep
    exact ⟨⟨_, rfl⟩, form.range.counted⟩

/-! ## 3. What is left of a record -/

/-- What the fields and splits of a placeholder leave of a record, before it is put into upper case
    and hashed. -/
def cut (p : Placeholder) (s : Splitter) (record : Record) : Except Error (Option Text) :=
  let selected := Text.join [s.delimiter] (Span.slice record (p.fields.first - 1) p.fields.last)
  if selected.isEmpty then .ok none else applySteps s p.steps selected

/-- A text in the case that the placeholder asks for. -/
def cased (p : Placeholder) (t : Text) : Text := if p.upcased then t.upper else t

theorem cased_eq_nil {p : Placeholder} {t : Text} : p.cased t = [] ↔ t = [] := by
  unfold cased
  split
  · exact Text.upper_eq_nil
  · exact Iff.rfl

/-- The value is what is left, in the right case, or the digest of it. -/
theorem value_eq (p : Placeholder) (s : Splitter) (record : Record) :
    p.value s record = (p.cut s record).bind fun
      | none => .ok none
      | some t => if p.hashed then (digest (p.cased t)).map some else .ok (some (p.cased t)) := by
  unfold value cut
  dsimp only
  split
  · rfl
  · cases applySteps s p.steps _ with
    | error e => rfl
    | ok left => cases left <;> rfl

end Placeholder

/-- A text is split step by step. -/
theorem applySteps_append (s : Splitter) (more : List SplitStep) : ∀ (steps : List SplitStep)
    (t : Text), applySteps s (steps ++ more) t = (applySteps s steps t).bind fun
      | none => .ok none
      | some left => applySteps s more left
  | [], t => rfl
  | step :: steps, t => by
    rw [List.cons_append, applySteps, applySteps]
    cases s.splitWith (some step.delimiter) t with
    | error e => rfl
    | ok parts =>
      dsimp only
      split
      · rfl
      · exact applySteps_append s more steps _

/-- What one step leaves. -/
theorem applySteps_singleton (s : Splitter) (step : SplitStep) (t left : Text) :
    applySteps s [step] t = .ok (some left) ↔
      ∃ parts, s.splitWith (some step.delimiter) t = .ok parts ∧ step.range.first ≤ parts.length ∧
        Text.join step.delimiter (Span.slice parts (step.range.first - 1) step.range.last)
          = left := by
  rw [applySteps]
  cases s.splitWith (some step.delimiter) t with
  | error e => exact ⟨nofun, by rintro ⟨_, h, -⟩; cases h⟩
  | ok parts =>
    dsimp only
    constructor
    · intro h
      split at h
      · cases h
      · rename_i hbegins
        exact ⟨parts, rfl, Int.not_lt.mp hbegins, Option.some.inj (Except.ok.inj h)⟩
    · rintro ⟨_, hparts, hbegins, hleft⟩
      obtain rfl := Except.ok.inj hparts
      rw [if_neg (Int.not_lt.mpr hbegins), applySteps, hleft]

namespace Placeholder

/-- The last split step leaves nothing of what the steps before it have left. -/
def EndsInNothing (p : Placeholder) (s : Splitter) (record : Record) : Prop :=
  ∃ steps step before parts, p.steps = steps ++ [step] ∧
    cut { p with steps } s record = .ok (some before) ∧
    s.splitWith (some step.delimiter) before = .ok parts ∧ step.range.TakesNothing parts

variable {p : Placeholder} {s : Splitter} {record : Record}

/-- The steps of a placeholder are those before the last one, and the last one. -/
theorem cut_append {steps : List SplitStep} {step : SplitStep} (h : p.steps = steps ++ [step]) :
    p.cut s record = (cut { p with steps } s record).bind fun
      | none => .ok none
      | some before => applySteps s [step] before := by
  unfold cut
  dsimp only
  split
  · rfl
  · rw [h, applySteps_append]

/-- **Nothing is left only by the last step.** Where a step before it leaves nothing, there are no
    parts for the next one to begin at. -/
theorem cut_eq_empty_iff
    (hsteps : ∀ step ∈ p.steps, (∃ d, step.delimiter = [d]) ∧ step.range.Counted) :
    p.cut s record = .ok (some []) ↔ p.EndsInNothing s record := by
  obtain hnil | ⟨steps, step, hconcat⟩ := List.eq_nil_or_concat p.steps
  · constructor
    · intro h
      rw [cut, hnil] at h
      split at h
      · cases h
      · rename_i hselected
        rw [applySteps] at h
        exact absurd (List.isEmpty_iff.mpr (Option.some.inj (Except.ok.inj h))) hselected
    · rintro ⟨steps, step, before, parts, hlast, -⟩
      rw [hnil] at hlast
      exact absurd hlast.symm (by simp)
  · rw [List.concat_eq_append] at hconcat
    obtain ⟨⟨d, hd⟩, hrange⟩ := hsteps step (by rw [hconcat]; simp)
    constructor
    · intro h
      rw [cut_append hconcat] at h
      cases hbefore : cut { p with steps } s record with
      | error e =>
        rw [hbefore] at h
        cases h
      | ok left =>
        rw [hbefore] at h
        cases left with
        | none => cases h
        | some before =>
          obtain ⟨parts, hparts, hbegins, hleft⟩ :=
            (applySteps_singleton s step before []).mp h
          rw [hd] at hleft
          exact ⟨steps, step, before, parts, hconcat, hbefore, hparts,
            hrange.join_slice_eq_nil.mp ⟨hbegins, hleft⟩⟩
    · rintro ⟨steps', step', before, parts, hlast, hbefore, hparts, hnothing⟩
      obtain ⟨rfl, hstep⟩ := List.append_inj' (hlast.symm.trans hconcat) rfl
      obtain rfl : step' = step := (List.cons.inj hstep).1
      obtain ⟨hbegins, hleft⟩ := hrange.join_slice_eq_nil.mpr hnothing
      rw [cut_append hconcat, hbefore]
      refine (applySteps_singleton s step' before []).mpr ⟨parts, hparts, hbegins, ?_⟩
      rw [hd]
      exact hleft

/-! ## 4. Values -/

/-- **An empty value counts as missing**, unless the last split step leaves it. Where the splits of a
    placeholder succeed, it has a value that is not empty, nor the digest of nothing, or none at
    all, just when the last step does not leave nothing and what is to be hashed can be encoded. -/
theorem value_present_iff {t : Text} {left : Option Text} (hparse : parse t = .ok p)
    (hcut : p.cut s record = .ok left) :
    (∃ value, p.value s record = .ok value ∧ value ≠ some [] ∧
        (p.hashed = true → left ≠ some [])) ↔
      ¬p.EndsInNothing s record ∧
        (p.hashed = true → ∀ text ∈ left, ∀ c ∈ p.cased text, c.isSurrogate = false) := by
  have hempty : left = some [] ↔ p.EndsInNothing s record := by
    rw [← cut_eq_empty_iff (steps_of_parse hparse), hcut, Except.ok.injEq]
  rw [← hempty, value_eq, hcut]
  cases left with
  | none => exact ⟨fun _ => ⟨nofun, nofun⟩, fun _ => ⟨none, rfl, nofun, nofun⟩⟩
  | some text =>
    show (∃ value, (if p.hashed then _ else _) = Except.ok value ∧ _) ↔ _
    cases p.hashed with
    | false =>
      constructor
      · rintro ⟨value, hvalue, hpresent, -⟩
        obtain rfl := Except.ok.inj hvalue
        exact ⟨fun h => hpresent (congrArg some (cased_eq_nil.mpr (Option.some.inj h))), nofun⟩
      · rintro ⟨hleft, -⟩
        exact ⟨_, rfl, fun h => hleft (congrArg some (cased_eq_nil.mp (Option.some.inj h))), nofun⟩
    | true =>
      obtain ⟨hencoded, hex, hdigest, hhex⟩ | ⟨hsurrogate, e, hdigest⟩ := digest_cases (p.cased text)
      · rw [hdigest]
        constructor
        · rintro ⟨value, -, -, hleft⟩
          exact ⟨hleft rfl, fun _ _ h => Option.some.inj h ▸ hencoded⟩
        · rintro ⟨hleft, -⟩
          exact ⟨some hex, rfl, fun h => hhex (Option.some.inj h), fun _ => hleft⟩
      · rw [hdigest]
        constructor
        · rintro ⟨value, hvalue, -⟩
          cases hvalue
        · rintro ⟨-, h⟩
          exact absurd (h rfl text rfl) hsurrogate

/-- The second of the parts of the first field between commas. -/
def secondPart : Placeholder := ⟨⟨1, some 1⟩, [⟨[','], ⟨2, some 2⟩⟩], false, false, "none"⟩

theorem parse_secondPart : parse "1/,:2?none" = .ok secondPart := by
  let one : Numeral := ⟨['1'], by decide, by decide⟩
  let two : Numeral := ⟨['2'], by decide, by decide⟩
  refine parse_written ⟨.none, .one one, [⟨.plain ',' (by decide), .one two⟩], some "none"⟩ ?_
  have hshort : one.Short ∧ two.Short :=
    ⟨(by decide : 1 ≤ maxIntegerDigits), (by decide : 1 ≤ maxIntegerDigits)⟩
  intro n hn
  obtain rfl | rfl : n = one ∨ n = two := by simpa [Reference.numerals, RangeForm.numerals] using hn
  · exact hshort.1
  · exact hshort.2

/-- Where both parts are given, the second one is taken. -/
theorem value_present_iff_secondPart :
    parse "1/,:2?none" = .ok secondPart ∧ secondPart.cut .standard ["a,b"] = .ok (some "b") ∧
      ¬secondPart.EndsInNothing .standard ["a,b"] := by
  have hcut : secondPart.cut .standard ["a,b"] = .ok (some "b") := rfl
  have hvalue : secondPart.value .standard ["a,b"] = .ok (some "b") := rfl
  exact ⟨parse_secondPart, hcut,
    ((value_present_iff parse_secondPart hcut).mp ⟨_, hvalue, by decide, nofun⟩).1⟩

/-- **The second part is empty, and still it is the value**, although there is a fallback. -/
theorem value_last_part :
    parse "1/,:2?none" = .ok secondPart ∧
      secondPart.value .standard ["a,"] = .ok (some []) := ⟨parse_secondPart, rfl⟩

end Placeholder

end GraphFeed
