import GraphFeed.Number.Basic
import GraphFeed.Proofs.Rounding
import Mathlib.Data.List.Induction

/-!
# The pattern of operands

An arithmetic operand has the form of a decimal (`NumberPattern`): a sign or none; digits, which a point
and more digits may follow, or a point and digits; an exponent or none. What number it denotes is said
part by part (`NumberPattern.Denotes`): digits alone denote a whole number, if they are not too many, and
everything else denotes the floating point number nearest to the decimal.

`Number.operand?` finds this number (`operand?_eq_some_iff`), and finds one exactly if the pattern
matches (`isSome_operand?_iff`). `DecimalParts.read?` takes runs of digits that are as long as they can
be; what comes behind a run of digits in the pattern is no digit, so that it finds the parts of the
pattern (`DecimalParts.read?_of`).
-/

namespace GraphFeed

namespace NumberPattern

/-! ## 1. The pattern -/

/-- A sign, or none, and whether the number is negative. -/
inductive Sign : Text → Bool → Prop
  | none : Sign [] false
  | plus : Sign ['+'] false
  | minus : Sign ['-'] true

/-- Digits of any script, or none, and the number that they write. -/
inductive Digits : Text → Nat → Prop
  | nil : Digits [] 0
  | snoc {t : Text} {n d : Nat} {c : CodePoint} (h : Digits t n) (hc : c.decimal? = some d) :
      Digits (t ++ [c]) (10 * n + d)

/-- Digits with a point among them, before them or behind them, or without one; the number that they
    write if the point is left out, and how many of them stand behind it. -/
inductive Mantissa : Text → Nat → Nat → Prop
  | whole {w : Text} {n : Nat} (hne : w ≠ []) (hw : Digits w n) : Mantissa w n 0
  | point {w f : Text} {n : Nat} (hne : w ≠ []) (h : Digits (w ++ f) n) :
      Mantissa (w ++ ('.' : CodePoint) :: f) n f.length
  | fraction {f : Text} {n : Nat} (hne : f ≠ []) (hf : Digits f n) :
      Mantissa (('.' : CodePoint) :: f) n f.length

/-- A whole number with a sign. -/
def signed (negative : Bool) (n : Nat) : Int := if negative then -n else n

/-- An exponent, or none, which counts as zero. -/
inductive Exponent : Text → Int → Prop
  | none : Exponent [] 0
  | digits {e : CodePoint} {s d : Text} {negative : Bool} {n : Nat} (he : e = 'e' ∨ e = 'E')
      (hs : Sign s negative) (hne : d ≠ []) (hd : Digits d n) :
      Exponent (e :: (s ++ d)) (signed negative n)

/-- **The text denotes the number.** A decimal with a point or an exponent, or with more digits than a
    whole number may have, denotes the floating point number nearest to it. -/
inductive Denotes : Text → Number → Prop
  | int {s w : Text} {negative : Bool} {n : Nat} (hs : Sign s negative) (hne : w ≠ [])
      (hw : Digits w n) (hlength : w.length ≤ maxIntegerDigits) :
      Denotes (s ++ w) (.int (signed negative n))
  | float {s m e : Text} {negative : Bool} {n places : Nat} {exponent : Int} {x : Binary64}
      (hs : Sign s negative) (hm : Mantissa m n places) (he : Exponent e exponent)
      (hform : ('.' : CodePoint) ∈ m ∨ e ≠ [] ∨ maxIntegerDigits < m.length)
      (hx : Binary64.Nearest negative (n * 10 ^ (exponent - places)) x) :
      Denotes (s ++ (m ++ e)) (.float x)

end NumberPattern

/-- The text has the form of a decimal. -/
def NumberPattern (t : Text) : Prop :=
  ∃ s negative m n places e exponent, t = s ++ (m ++ e) ∧ NumberPattern.Sign s negative ∧
    NumberPattern.Mantissa m n places ∧ NumberPattern.Exponent e exponent

namespace NumberPattern

variable {t s m e d w f rest : Text} {negative : Bool} {n places : Nat} {exponent : Int}

/-! ## 2. Signs and digits -/

theorem sign_splitSign (t : Text) : ∃ s, Sign s (splitSign t).1 ∧ t = s ++ (splitSign t).2 := by
  cases t with
  | nil => exact ⟨[], .none, rfl⟩
  | cons c t =>
    rw [splitSign]
    by_cases hminus : c = '-'
    · rw [if_pos hminus, hminus]
      exact ⟨_, .minus, rfl⟩
    · rw [if_neg hminus]
      by_cases hplus : c = '+'
      · rw [if_pos hplus, hplus]
        exact ⟨_, .plus, rfl⟩
      · rw [if_neg hplus]
        exact ⟨[], .none, rfl⟩

/-- A sign is split off what does not begin with another one. -/
theorem splitSign_append (hs : Sign s negative) (ht : ∀ c ∈ t.head?, c ≠ '+' ∧ c ≠ '-') :
    splitSign (s ++ t) = (negative, t) := by
  cases hs with
  | none =>
    cases t with
    | nil => rfl
    | cons c t =>
      obtain ⟨hplus, hminus⟩ := ht c rfl
      rw [List.nil_append, splitSign, if_neg hminus, if_neg hplus]
  | plus => rfl
  | minus => rfl

theorem ne_of_isDecimal {c x : CodePoint} (hc : c.isDecimal = true) (hx : x.isDecimal = false) :
    c ≠ x := by
  rintro rfl
  rw [hx] at hc
  cases hc

/-- Digits write the number that they are read as. -/
theorem digits_iff : Digits t n ↔ (∀ c ∈ t, c.isDecimal = true) ∧ digitsValue t = n := by
  have hvalue : ∀ (t : Text) (c : CodePoint),
      digitsValue (t ++ [c]) = 10 * digitsValue t + c.decimal?.getD 0 := fun t c => by
    rw [digitsValue, List.foldl_append]
    rfl
  constructor
  · intro h
    induction h with
    | nil => exact ⟨nofun, rfl⟩
    | snoc h hc ih =>
      obtain ⟨hdecimal, hn⟩ := ih
      refine ⟨List.forall_mem_append.mpr ⟨hdecimal, List.forall_mem_singleton.mpr ?_⟩, ?_⟩
      · rw [CodePoint.isDecimal, hc]
        rfl
      · rw [hvalue, hn, hc]
        rfl
  · rintro ⟨hdecimal, rfl⟩
    induction t using List.reverseRecOn with
    | nil => exact .nil
    | append_singleton t c ih =>
      obtain ⟨ht, hc⟩ := List.forall_mem_append.mp hdecimal
      obtain ⟨d, hd⟩ := Option.isSome_iff_exists.mp (hc c (List.mem_singleton_self c))
      rw [hvalue, hd]
      exact .snoc (ih ht) hd

theorem Digits.decimal (h : Digits t n) : ∀ c ∈ t, c.isDecimal = true := (digits_iff.mp h).1

theorem Digits.value (h : Digits t n) : digitsValue t = n := (digits_iff.mp h).2

theorem digits_of_decimal (h : ∀ c ∈ t, c.isDecimal = true) : Digits t (digitsValue t) :=
  digits_iff.mpr ⟨h, rfl⟩

theorem decimal_head (h : ∀ c ∈ d, c.isDecimal = true) : ∀ c ∈ d.head?, c ≠ '+' ∧ c ≠ '-' := fun c hc =>
  have hdigit := h c (List.mem_of_mem_head? hc)
  ⟨ne_of_isDecimal hdigit (by decide), ne_of_isDecimal hdigit (by decide)⟩

theorem decimal_takeWhile (t : Text) : ∀ c ∈ t.takeWhile CodePoint.isDecimal, c.isDecimal = true :=
  fun _ hc => List.all_eq_true.mp List.all_takeWhile _ hc

/-- There is no point among digits. -/
theorem point_notMem (h : ∀ c ∈ t, c.isDecimal = true) : ('.' : CodePoint) ∉ t := fun hmem =>
  absurd (h _ hmem) (by decide)

/-- Digits reach to the first code point that is none. -/
theorem span_decimal (h : ∀ c ∈ d, c.isDecimal = true) (hrest : ∀ c ∈ rest.head?, c.isDecimal = false) :
    (d ++ rest).takeWhile CodePoint.isDecimal = d ∧
      (d ++ rest).dropWhile CodePoint.isDecimal = rest := by
  rw [List.takeWhile_append_of_pos h, List.dropWhile_append_of_pos h]
  cases rest with
  | nil => exact ⟨List.append_nil d, rfl⟩
  | cons c rest =>
    have hc : ¬ c.isDecimal = true := by
      rw [hrest c rfl]
      decide
    rw [List.takeWhile_cons_of_neg hc, List.dropWhile_cons_of_neg hc]
    exact ⟨List.append_nil d, rfl⟩

/-! ## 3. Exponents -/

/-- What is read as an exponent is one; where none is read, there is nothing. -/
theorem exponent_of_read {read : Option Int} (h : readExponent? t = some read) :
    Exponent t (read.getD 0) ∧ (read = none ↔ t = []) := by
  cases t with
  | nil =>
    cases h
    exact ⟨.none, iff_of_true rfl rfl⟩
  | cons c t =>
    rw [readExponent?] at h
    obtain ⟨s, hs, ht⟩ := sign_splitSign t
    generalize splitSign t = parts at *
    obtain ⟨negative, digits⟩ := parts
    split at h
    · rename_i hc
      dsimp only at h hs ht
      split at h
      · cases h
      · rename_i hdigits
        cases h
        simp only [Bool.or_eq_true, Bool.not_eq_true', not_or, List.isEmpty_iff,
          Bool.not_eq_false, List.all_eq_true] at hdigits
        rw [ht]
        exact ⟨.digits hc hs hdigits.1 (digits_of_decimal hdigits.2), nofun, nofun⟩
    · cases h

/-- An exponent is read as one. -/
theorem read_of_exponent (h : Exponent e exponent) :
    ∃ read : Option Int, readExponent? e = some read ∧ read.getD 0 = exponent ∧
      (read = none ↔ e = []) := by
  cases h with
  | none => exact ⟨none, rfl, rfl, iff_of_true rfl rfl⟩
  | @digits c s d negative n hc hs hne hd =>
    refine ⟨some (signed negative n), ?_, rfl, nofun, nofun⟩
    have hbad : ¬(d.isEmpty || !d.all CodePoint.isDecimal) = true := by
      rw [Bool.or_eq_true, List.isEmpty_iff, Bool.not_eq_true', not_or]
      exact ⟨hne, by rw [List.all_eq_true.mpr hd.decimal]; decide⟩
    rw [readExponent?, if_pos hc, splitSign_append hs (decimal_head hd.decimal)]
    dsimp only
    rw [if_neg hbad, hd.value]
    rfl

theorem Exponent.head (h : Exponent e exponent) :
    ∀ c ∈ e.head?, c.isDecimal = false ∧ c ≠ '.' := by
  cases h with
  | none => exact nofun
  | digits hc =>
    rintro _ ⟨⟩
    rcases hc with rfl | rfl
    · decide
    · decide

/-- A mantissa begins with a digit or a point. -/
theorem Mantissa.head (h : Mantissa m n places) (e : Text) : ∀ c ∈ (m ++ e).head?, c ≠ '+' ∧ c ≠ '-' := by
  have hdigits : ∀ {w : Text}, w ≠ [] → (∀ c ∈ w, c.isDecimal = true) → ∀ rest : Text,
      ∀ c ∈ (w ++ rest).head?, c ≠ '+' ∧ c ≠ '-' := by
    intro w hne hw rest
    obtain ⟨d, w, rfl⟩ := List.exists_cons_of_ne_nil hne
    exact fun c hc => decimal_head hw c hc
  cases h with
  | whole hne hw => exact hdigits hne hw.decimal e
  | point hne h =>
    rw [List.append_assoc]
    exact hdigits hne (List.forall_mem_append.mp h.decimal).1 _
  | fraction =>
    rintro _ ⟨⟩
    decide

end NumberPattern

/-! ## 4. Decimals -/

namespace DecimalParts

open NumberPattern

variable {t s m e : Text} {p : DecimalParts} {negative : Bool} {n places : Nat} {exponent : Int}

/-- All digits of a decimal but those of its exponent. -/
def digits (p : DecimalParts) : Text := p.whole ++ p.fraction.getD []

/-- **The parts are those of a mantissa and an exponent.** -/
structure Of (p : DecimalParts) (m e : Text) : Prop where
  mantissa : Mantissa m (digitsValue p.digits) (p.fraction.getD []).length
  exponent : Exponent e (p.exponent.getD 0)
  whole : p.isWhole = true → p.whole = m ∧ e = [] ∧ m ≠ [] ∧ Digits m (digitsValue m)
  notWhole : p.isWhole = false → ('.' : CodePoint) ∈ m ∨ e ≠ []

/-- Digits without a point are the mantissa. -/
theorem of_whole {w : Text} {read : Option Int} (hne : w ≠ []) (hw : ∀ c ∈ w, c.isDecimal = true)
    (he : Exponent e (read.getD 0)) (hnone : read = none ↔ e = []) :
    (⟨negative, w, none, read⟩ : DecimalParts).Of w e := by
  refine ⟨?_, he, fun hwhole => ?_, fun hnot => .inr fun hnil => ?_⟩
  · change Mantissa w (digitsValue (w ++ [])) 0
    rw [List.append_nil]
    exact .whole hne (digits_of_decimal hw)
  · exact ⟨rfl, hnone.mp (Option.isNone_iff_eq_none.mp hwhole), hne, digits_of_decimal hw⟩
  · rw [hnone.mpr hnil] at hnot
    cases hnot

/-- So are digits with a point among them, before them or behind them. -/
theorem of_point {w f : Text} {read : Option Int} (hne : w ≠ [] ∨ f ≠ [])
    (h : ∀ c ∈ w ++ f, c.isDecimal = true) (he : Exponent e (read.getD 0)) :
    (⟨negative, w, some f, read⟩ : DecimalParts).Of (w ++ ('.' : CodePoint) :: f) e := by
  refine ⟨?_, he, nofun, fun _ => .inl (by simp)⟩
  change Mantissa (w ++ ('.' : CodePoint) :: f) (digitsValue (w ++ f)) f.length
  by_cases hempty : w = []
  · subst hempty
    exact .fraction (hne.resolve_left fun hne => hne rfl) (digits_of_decimal h)
  · exact .point hempty (digits_of_decimal h)

/-- **The parts that are read are those of the text.** -/
theorem of_read? (h : read? t = some p) :
    ∃ s m e, t = s ++ (m ++ e) ∧ Sign s p.negative ∧ p.Of m e := by
  unfold read? at h
  obtain ⟨s, hs, ht⟩ := sign_splitSign t
  generalize splitSign t = parts at *
  obtain ⟨negative, behind⟩ := parts
  dsimp only at h hs ht
  have hwhole := decimal_takeWhile behind
  have hsplit := List.takeWhile_append_dropWhile (p := CodePoint.isDecimal) (l := behind)
  generalize behind.takeWhile CodePoint.isDecimal = whole at *
  generalize behind.dropWhile CodePoint.isDecimal = rest at *
  subst hsplit
  cases rest with
  | nil =>
    dsimp only at h
    split at h
    · cases h
    · rename_i hempty
      have hne : whole ≠ [] := fun hnil => hempty (List.isEmpty_iff.mpr hnil)
      cases h
      exact ⟨s, whole, [], ht, hs, of_whole hne hwhole .none (iff_of_true rfl rfl)⟩
  | cons c after =>
    dsimp only at h
    split at h
    · rename_i hc
      subst hc
      have hfraction := decimal_takeWhile after
      have hbehind := List.takeWhile_append_dropWhile (p := CodePoint.isDecimal) (l := after)
      generalize after.takeWhile CodePoint.isDecimal = fraction at *
      generalize after.dropWhile CodePoint.isDecimal = e at *
      subst hbehind
      split at h
      · cases h
      · rename_i hempty
        obtain ⟨read, hread, rfl⟩ := Option.map_eq_some_iff.mp h
        have hne : whole ≠ [] ∨ fraction ≠ [] := by
          rwa [Bool.and_eq_true, List.isEmpty_iff, List.isEmpty_iff, not_and_or] at hempty
        exact ⟨s, whole ++ ('.' : CodePoint) :: fraction, e, by simpa using ht, hs,
          of_point hne (List.forall_mem_append.mpr ⟨hwhole, hfraction⟩) (exponent_of_read hread).1⟩
    · split at h
      · cases h
      · rename_i hempty
        have hne : whole ≠ [] := fun hnil => hempty (List.isEmpty_iff.mpr hnil)
        obtain ⟨read, hread, rfl⟩ := Option.map_eq_some_iff.mp h
        obtain ⟨hexponent, hnone⟩ := exponent_of_read hread
        exact ⟨s, whole, c :: after, ht, hs, of_whole hne hwhole hexponent hnone⟩

/-- **A sign, a mantissa and an exponent are read as what they are.** -/
theorem read?_of (hs : Sign s negative) (hm : Mantissa m n places) (he : Exponent e exponent) :
    ∃ p, read? (s ++ (m ++ e)) = some p ∧ p.negative = negative ∧ digitsValue p.digits = n ∧
      (p.fraction.getD []).length = places ∧ p.exponent.getD 0 = exponent ∧ p.Of m e := by
  obtain ⟨read, hread, rfl, hnone⟩ := read_of_exponent he
  unfold read?
  rw [splitSign_append hs (hm.head e)]
  dsimp only
  cases hm with
  | whole hne hw =>
    have hvalue : digitsValue (m ++ []) = n := by rw [List.append_nil, hw.value]
    have hof : (⟨negative, m, none, read⟩ : DecimalParts).Of m e := of_whole hne hw.decimal he hnone
    obtain ⟨htake, hdrop⟩ := span_decimal hw.decimal fun c hc => (he.head c hc).1
    rw [htake, hdrop]
    cases e with
    | nil =>
      obtain rfl : read = none := hnone.mpr rfl
      dsimp only
      rw [if_neg (by simpa using hne)]
      exact ⟨_, rfl, rfl, hvalue, rfl, rfl, hof⟩
    | cons c e =>
      dsimp only
      rw [if_neg (he.head c rfl).2, if_neg (by simpa using hne), hread]
      exact ⟨_, rfl, rfl, hvalue, rfl, rfl, hof⟩
  | @point w f n hne hw =>
    obtain ⟨hwhole, hfraction⟩ := List.forall_mem_append.mp hw.decimal
    have hhead : ∀ c ∈ (('.' : CodePoint) :: (f ++ e)).head?, c.isDecimal = false := by
      rintro _ ⟨⟩
      decide
    obtain ⟨htake, hdrop⟩ := span_decimal hwhole hhead
    obtain ⟨htake', hdrop'⟩ := span_decimal hfraction fun c hc => (he.head c hc).1
    rw [List.append_assoc, List.cons_append, htake, hdrop]
    dsimp only
    rw [if_pos rfl, htake', hdrop', if_neg (by simp [hne]), hread]
    exact ⟨_, rfl, rfl, hw.value, rfl, rfl, of_point (.inl hne) hw.decimal he⟩
  | @fraction f n hne hf =>
    obtain ⟨htake, hdrop⟩ := span_decimal hf.decimal fun c hc => (he.head c hc).1
    have hnone : ¬ ('.' : CodePoint).isDecimal = true := by decide
    rw [List.cons_append, List.takeWhile_cons_of_neg hnone, List.dropWhile_cons_of_neg hnone]
    dsimp only
    rw [if_pos rfl, htake, hdrop, if_neg (by simp [hne]), hread]
    exact ⟨_, rfl, rfl, hf.value, rfl, rfl, of_point (.inr hne) hf.decimal he⟩

end DecimalParts

/-! ## 5. Operands -/

namespace NumberPattern

variable {t s m e : Text} {negative : Bool} {n places : Nat} {exponent : Int}

/-- The number of a decimal that is no whole number is nearest to it. -/
theorem nearest_toBinary64 (p : DecimalParts) :
    Binary64.Nearest p.negative
      (digitsValue p.digits * 10 ^ (p.exponent.getD 0 - (p.fraction.getD []).length : Int))
      p.toBinary64 :=
  Binary64.ofDecimal_spec ..

theorem denotes_of_operand? {x : Number} (h : Number.operand? t = some x) : Denotes t x := by
  obtain ⟨p, hp, rfl⟩ := Option.map_eq_some_iff.mp h
  obtain ⟨s, m, e, rfl, hs, hof⟩ := DecimalParts.of_read? hp
  split
  · rename_i hshort
    rw [Bool.and_eq_true, decide_eq_true_eq] at hshort
    obtain ⟨hwhole, rfl, hne, hdigits⟩ := hof.whole hshort.1
    rw [List.append_nil, ← hwhole]
    rw [← hwhole] at hne hdigits
    exact .int hs hne hdigits hshort.2
  · rename_i hlong
    refine .float hs hof.mantissa hof.exponent ?_ (nearest_toBinary64 p)
    cases hwhole : p.isWhole with
    | false => exact (hof.notWhole hwhole).imp_right .inl
    | true =>
      rw [hwhole, Bool.true_and, decide_eq_true_eq, (hof.whole hwhole).1] at hlong
      exact .inr (.inr (Nat.lt_of_not_le hlong))

theorem operand?_of_denotes {x : Number} (h : Denotes t x) : Number.operand? t = some x := by
  cases h with
  | @int s w negative n hs hne hw hlength =>
    obtain ⟨p, hp, rfl, _, _, _, hof⟩ := DecimalParts.read?_of hs (.whole hne hw) .none
    rw [List.append_nil] at hp
    have hwhole : p.isWhole = true := by
      refine Bool.of_not_eq_false fun hnot => ?_
      rcases hof.notWhole hnot with hpoint | hexponent
      · exact point_notMem hw.decimal hpoint
      · exact hexponent rfl
    obtain ⟨rfl, -⟩ := hof.whole hwhole
    rw [Number.operand?, hp, Option.map_some, hwhole, Bool.true_and, if_pos (decide_eq_true hlength),
      DecimalParts.toInt, hw.value]
    rfl
  | @float s m e negative n places exponent x hs hm he hform hx =>
    obtain ⟨p, hp, rfl, rfl, rfl, rfl, hof⟩ := DecimalParts.read?_of hs hm he
    have hlong : ¬(p.isWhole && p.whole.length ≤ maxIntegerDigits) = true := by
      rw [Bool.and_eq_true, decide_eq_true_eq]
      rintro ⟨hwhole, hlength⟩
      obtain ⟨rfl, rfl, _, hdigits⟩ := hof.whole hwhole
      rcases hform with hpoint | hexponent | hlong
      · exact point_notMem hdigits.decimal hpoint
      · exact hexponent rfl
      · omega
    rw [Number.operand?, hp, Option.map_some, if_neg hlong, (nearest_toBinary64 p).unique hx]

end NumberPattern

/-- **The number of an operand is the one that it denotes.** -/
theorem operand?_eq_some_iff {t : Text} {x : Number} :
    Number.operand? t = some x ↔ NumberPattern.Denotes t x :=
  ⟨NumberPattern.denotes_of_operand?, NumberPattern.operand?_of_denotes⟩

/-- **The operands that are numbers are those that have the form of a decimal.** -/
theorem isSome_operand?_iff (t : Text) : (Number.operand? t).isSome ↔ NumberPattern t := by
  constructor
  · intro h
    obtain ⟨x, hx⟩ := Option.isSome_iff_exists.mp h
    obtain ⟨p, hp, _⟩ := Option.map_eq_some_iff.mp hx
    obtain ⟨s, m, e, rfl, hs, hof⟩ := DecimalParts.of_read? hp
    exact ⟨s, _, m, _, _, e, _, rfl, hs, hof.mantissa, hof.exponent⟩
  · rintro ⟨s, _, m, _, _, e, _, rfl, hs, hm, he⟩
    obtain ⟨p, hp, _⟩ := DecimalParts.read?_of hs hm he
    rw [Number.operand?, hp]
    rfl

end GraphFeed
