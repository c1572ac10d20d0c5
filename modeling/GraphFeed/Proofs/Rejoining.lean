import GraphFeed.Proofs.QuotedField
import GraphFeed.Proofs.WrittenLine

/-!
# Splitting and joining again

A text without line ends, and without quote marks unless they are the delimiter, is split at each
delimiter and nowhere else (`Separable.splitWith`), so joining its parts gives it back.

* `value_splitting`: a placeholder that splits a value once takes a range of its parts, joined again;
  two ranges that meet give the value back, with a delimiter between them (`join_parts`);
* `result_of_all`: the empty placeholder joins all fields of a line again, and what it puts in comes
  through the rest of the expansion as it is, whatever braces are in it.
-/

namespace GraphFeed

open Buffer (Cell)

/-! ## 1. Parts of a text -/

namespace Text

theorem splitOn_cons (c : CodePoint) (t : Text) (d : CodePoint) :
    ∃ part rest, splitOn t d = part :: rest ∧
      splitOn (c :: t) d = if c = d then [] :: part :: rest else (c :: part) :: rest := by
  induction t generalizing c with
  | nil => exact ⟨[], [], rfl, rfl⟩
  | cons x t ih =>
    obtain ⟨part, rest, _, hx⟩ := ih x
    by_cases hd : x = d
    · rw [if_pos hd] at hx
      exact ⟨_, _, hx, by rw [splitOn, hx]⟩
    · rw [if_neg hd] at hx
      exact ⟨_, _, hx, by rw [splitOn, hx]⟩

theorem splitOn_ne_nil (t : Text) (d : CodePoint) : splitOn t d ≠ [] := by
  obtain ⟨part, rest, hsplit, _⟩ := splitOn_cons d t d
  rw [hsplit]
  exact List.cons_ne_nil _ _

theorem join_cons {parts : List Text} (h : parts ≠ []) (separator part : Text) :
    join separator (part :: parts) = part ++ separator ++ join separator parts := by
  obtain ⟨next, rest, rfl⟩ := List.exists_cons_of_ne_nil h
  rw [join_cons_cons]

/-- **The parts of a text, joined, are the text.** -/
theorem join_splitOn (t : Text) (d : CodePoint) : join [d] (splitOn t d) = t := by
  induction t with
  | nil => rfl
  | cons c t ih =>
    obtain ⟨part, rest, hsplit, hcons⟩ := splitOn_cons c t d
    rw [hcons]
    by_cases hd : c = d
    · rw [if_pos hd, ← hsplit, join_cons (splitOn_ne_nil t d), ih, hd]
      rfl
    · rw [if_neg hd]
      rw [hsplit] at ih
      cases rest with
      | nil => rw [join_singleton, ← ih, join_singleton]
      | cons next rest =>
        rw [join_cons_cons] at ih ⊢
        rw [← ih]
        rfl

/-- Two lists of parts are joined with one separator more. -/
theorem join_append (separator : Text) {b : List Text} (hb : b ≠ []) : ∀ {a : List Text}, a ≠ [] →
    join separator (a ++ b) = join separator a ++ separator ++ join separator b
  | [], ha => absurd rfl ha
  | [part], _ => join_cons hb separator part
  | part :: next :: rest, _ => by
    rw [List.cons_append, join_cons (by simp), join_append separator hb (List.cons_ne_nil next rest),
      join_cons_cons]
    simp only [List.append_assoc]

/-- The first parts and the others, joined apart, are all parts with one separator between. -/
theorem join_parts (separator : Text) {parts : List Text} {k : Nat} (hk : 1 ≤ k)
    (hlt : k < parts.length) :
    join separator (parts.take k) ++ separator ++ join separator (parts.drop k)
      = join separator parts := by
  have hfirst : parts.take k ≠ [] := by
    refine List.ne_nil_of_length_pos ?_
    rw [List.length_take]
    omega
  have hothers : parts.drop k ≠ [] := by
    refine List.ne_nil_of_length_pos ?_
    rw [List.length_drop]
    omega
  rw [← join_append separator hothers hfirst, List.take_append_drop]

end Text

/-! ## 2. A text without quotes -/

namespace Splitter

/-- What a splitter takes for its delimiters and nothing else: it has no line ends, and no quote
    marks unless they are the delimiter; nor is a part of it too long. -/
structure Separable (s : Splitter) (d : CodePoint) (v : Text) : Prop where
  nonempty : v ≠ []
  lineEnds : ∀ c ∈ v, isLineEnd c = false
  delimiter : isLineEnd d = false
  quotes : d ≠ s.quote → s.quote ∉ v
  short : ∀ part ∈ Text.splitOn v d, part.length ≤ fieldLimit

variable {s : Splitter} {d : CodePoint} {v : Text}

/-- One code point more in front of a field that is written as it is. -/
theorem FieldWritten.push {quote? : Option CodePoint} {c : CodePoint} {field written : Text}
    (h : FieldWritten d quote? field written) (hwritten : ∀ q ∈ quote?, q ∉ written) (hd : c ≠ d)
    (hc : isLineEnd c = false) (hq : some c ≠ quote?) :
    FieldWritten d quote? (c :: field) (c :: written) := by
  cases h with
  | quoted hquote _ => exact absurd List.mem_cons_self (hwritten _ hquote)
  | plain inside _ =>
    refine .plain (List.forall_mem_cons.mpr ⟨⟨hd, hc⟩, inside⟩) ?_
    rintro x ⟨⟩
    exact hq

/-- A text without quote marks and line ends is a line of its parts. -/
theorem lineWritten_splitOn {quote? : Option CodePoint} (hq : ∀ q ∈ quote?, q ∉ v)
    (hv : ∀ c ∈ v, isLineEnd c = false) : LineWritten d quote? (Text.splitOn v d) v := by
  induction v with
  | nil => exact .last .empty
  | cons c v ih =>
    obtain ⟨hc, hrest⟩ := List.forall_mem_cons.mp hv
    have hquote : ∀ q ∈ quote?, q ∉ v := fun q h hmem => hq q h (List.mem_cons_of_mem c hmem)
    have hne : some c ≠ quote? := fun h => hq c h.symm List.mem_cons_self
    have hline := ih hquote hrest
    obtain ⟨part, rest, hsplit, hcons⟩ := Text.splitOn_cons c v d
    rw [hcons]
    rw [hsplit] at hline
    by_cases hd : c = d
    · rw [if_pos hd, hd]
      exact .more .empty hline
    · rw [if_neg hd]
      cases hline with
      | last h => exact .last (h.push hquote hd hc hne)
      | more h hmore =>
        have hpushed := h.push (fun q hmem hw => hquote q hmem (List.mem_append_left _ hw)) hd hc hne
        exact .more hpushed hmore

/-- **A separable text is split at each delimiter.** -/
theorem Separable.splitWith (h : s.Separable d v) :
    s.splitWith (some [d]) v = .ok (Text.splitOn v d) := by
  refine splitWith_of_fields h.nonempty ?_
  by_cases hd : d = s.quote
  · rw [if_pos hd]
    exact fields_written nofun h.delimiter (lineWritten_splitOn nofun h.lineEnds) h.short h.nonempty
  · rw [if_neg hd]
    have hquote : ∀ q ∈ some s.quote, q ∉ v := by
      rintro q ⟨⟩
      exact h.quotes hd
    exact fields_written (fun hs => hd (Option.some.inj hs)) h.delimiter
      (lineWritten_splitOn hquote h.lineEnds) h.short h.nonempty

end Splitter

/-! ## 3. A value that is split once -/

/-- The range names the first item, and with it the only one where there are no others. -/
def ItemRange.NamesFirst (r : ItemRange) : Prop := r.first = 1 ∧ ∀ n ∈ r.last, 1 ≤ n

/-- The placeholder that splits the fields it names once, and takes a range of the parts. -/
def Placeholder.splitting (fields : ItemRange) (d : CodePoint) (parts : ItemRange)
    (fallback : Text) : Placeholder :=
  ⟨fields, [⟨[d], parts⟩], false, false, fallback⟩

theorem ItemRange.NamesFirst.slice {r : ItemRange} (h : r.NamesFirst) (v : Text) :
    Span.slice [v] (r.first - 1) r.last = [v] := by
  obtain ⟨first, last⟩ := r
  obtain ⟨hfirst, hlast⟩ := h
  dsimp only at hfirst hlast
  subst hfirst
  cases last with
  | none => rfl
  | some n =>
    have hn : 1 ≤ n := hlast n rfl
    have hclamp : Span.clamp 1 n = 1 := by
      unfold Span.clamp
      split <;> omega
    show (List.take (Span.clamp 1 n) [v]).drop 0 = [v]
    rw [hclamp]
    rfl

/-- **A placeholder that splits a value once takes a range of its parts**, joined again. -/
theorem Placeholder.value_splitting {s : Splitter} {d : CodePoint} {v : Text} {fields : ItemRange}
    {parts : List Text} (range : ItemRange) (hf : fields.NamesFirst) (hv : v ≠ [])
    (hsplit : s.splitWith (some [d]) v = .ok parts) (hstart : range.first ≤ parts.length)
    (fallback : Text) :
    (splitting fields d range fallback).value s [v]
      = .ok (some (Text.join [d] (Span.slice parts (range.first - 1) range.last))) := by
  have hempty : v.isEmpty = false := List.isEmpty_eq_false_iff.mpr hv
  have hsteps : applySteps s [⟨[d], range⟩] v
      = .ok (some (Text.join [d] (Span.slice parts (range.first - 1) range.last))) := by
    rw [applySteps, hsplit]
    simp only
    rw [if_neg (by omega)]
    rfl
  simp only [value, splitting, hf.slice v, Text.join_singleton, hempty, hsteps]
  rfl

/-! ## 4. The empty placeholder -/

/-- The value of the empty placeholder is that of all fields. -/
theorem Placeholder.value_all {s : Splitter} {record : Record} {v : Text} (hv : v ≠ [])
    (hjoin : Text.join [s.delimiter] record = v) : Placeholder.all.value s record = .ok (some v) := by
  have hempty : v.isEmpty = false := List.isEmpty_eq_false_iff.mpr hv
  have hslice : Span.slice record ((1 : Int) - 1) none = record :=
    Span.slice_drop (k := 0) (Nat.zero_le _)
  simp only [value, all, hslice, hjoin, hempty]
  rfl

/-- **The empty placeholder joins all fields**, and the result is just that. -/
theorem result_of_all (s : Splitter) (runner : Runner) {record : Record} {v : Text} (hv : v ≠ [])
    (hjoin : Text.join [s.delimiter] record = v) : (expand s runner "{}" record).result = .ok v := by
  let brace : Cell := ⟨⟨'{', some 0⟩, some .trusted⟩
  let close : Cell := ⟨⟨'}', some 1⟩, some .trusted⟩
  have hcells : Cell.ofTemplate "{}" = [brace, close] := rfl
  have hlive : Phase.fields.isLive ([] : List Cell).head? brace [close].head? = .ok true := rfl
  have hscan : Brace.scan Cell.token 0 false [close] = .closed [] [] := rfl
  have hfill : (fieldFiller s record).fill 0 brace []
      = ([.reading [], .understood .all], .ok (.data v)) := by
    show (_, Placeholder.filling s record [] .all) = _
    rw [Placeholder.filling, Placeholder.value_all hv hjoin]
    rfl
  have hresolved :=
    resolveBrace_fill .fields [] (show brace.mark = some .trusted from rfl) hscan hfill
  have hmark : ∀ c ∈ Cell.ofText .resolved v, c.mark = some .trusted ∨ c.mark = some .resolved :=
    fun c hc => .inr (Cell.mark_of_mem_ofText hc)
  have hresult : (expand s runner "{}" record).result
      = .ok (Cell.text (Cell.ofText .resolved v)) := by
    refine result_of_filled s runner ?_ ?_ hmark (noTemplateBrace_data v)
    · rw [hcells, sweep_resolve hlive hresolved, Progress.state_after, Filling.put, sweep_nil,
        List.append_nil, List.reverse_reverse]
    · rw [hcells, sweep_resolve hlive hresolved, Progress.error_after, Filling.put, sweep_nil]
  rwa [Cell.text_ofText] at hresult

/-! ## 5. Nothing is lost -/

/-- **What is split can be joined again.** The parts of a separable text, joined, are the text; so are
    the first parts and the others, as two placeholders take them out of a record of that one field;
    and so is what the empty placeholder makes of a line, whatever braces the line has. -/
theorem split_rejoined (s : Splitter) (v : Text) :
    (∀ d : CodePoint, s.Separable d v →
      s.splitWith (some [d]) v = .ok (Text.splitOn v d) ∧ Text.join [d] (Text.splitOn v d) = v ∧
        ∀ (fields : ItemRange) (fallback : Text) (k : Nat), fields.NamesFirst →
          1 ≤ k → k < (Text.splitOn v d).length →
            ∃ front back,
              (Placeholder.splitting fields d ⟨1, some k⟩ fallback).value s [v] = .ok (some front) ∧
              (Placeholder.splitting fields d ⟨k + 1, none⟩ fallback).value s [v] = .ok (some back) ∧
              front ++ [d] ++ back = v) ∧
    (s.Separable s.delimiter v → ∀ runner : Runner, (expandLine s runner "{}" v).result = .ok v) := by
  refine ⟨fun d h => ⟨h.splitWith, Text.join_splitOn v d, ?_⟩, fun h runner => ?_⟩
  · intro fields fallback k hf hk hlt
    have hfront := Placeholder.value_splitting ⟨1, some k⟩ hf h.nonempty h.splitWith
      (by dsimp only; omega) fallback
    have hback := Placeholder.value_splitting ⟨k + 1, none⟩ hf h.nonempty h.splitWith
      (by dsimp only; omega) fallback
    refine ⟨_, _, hfront, hback, ?_⟩
    rw [Int.sub_self, Int.add_sub_cancel, Span.slice_take (by omega), Span.slice_drop (by omega),
      Text.join_parts [d] hk hlt, Text.join_splitOn]
  · have hsplit : s.split v = .ok (Text.splitOn v s.delimiter) := h.splitWith
    rw [expandLine, hsplit]
    exact result_of_all s runner h.nonempty (Text.join_splitOn v s.delimiter)

/-- A line with braces, with delimiters at its beginning and one behind the other. -/
theorem split_rejoined_braces :
    let v : Text := ",{!rm},, {1} "
    Splitter.standard.Separable ',' v ∧ Splitter.standard.Separable ' ' v ∧
      Splitter.standard.splitWith (some ",") v = .ok ["", "{!rm}", "", " {1} "] ∧
      (∃ front back,
        (Placeholder.splitting ⟨1, none⟩ ',' ⟨1, some 2⟩ []).value .standard [v] = .ok (some front) ∧
        (Placeholder.splitting ⟨1, none⟩ ',' ⟨3, none⟩ []).value .standard [v] = .ok (some back) ∧
        front ++ "," ++ back = v) ∧
      (expandLine .standard repeating "{}" v).result = .ok v := by
  intro v
  have hcomma : Splitter.standard.Separable ',' v :=
    ⟨by decide, by decide, by decide, by decide, by decide⟩
  have hblank : Splitter.standard.Separable ' ' v :=
    ⟨by decide, by decide, by decide, by decide, by decide⟩
  obtain ⟨hparts, hline⟩ := split_rejoined .standard v
  obtain ⟨hsplit, _, hcut⟩ := hparts ',' hcomma
  exact ⟨hcomma, hblank, hsplit, hcut ⟨1, none⟩ [] 2 ⟨rfl, nofun⟩ (by decide) (by decide),
    hline hblank repeating⟩

end GraphFeed
