import GraphFeed.Number.Binary64
import Mathlib.Algebra.Order.Field.Power
import Mathlib.Tactic.FieldSimp
import Mathlib.Tactic.Linarith
import Mathlib.Tactic.NormNum
import Mathlib.Tactic.Positivity
import Mathlib.Tactic.Ring

/-!
# Rounding to the nearest number

`Binary64.Nearest negative q x` says that `x` is the number nearest to `q`, with a sign: of all finite
numbers none is nearer, and one that is as near has an odd mantissa where that of `x` is even. From
`Binary64.limit` on it is the infinity. There is one such number at most (`Nearest.unique`), and
`Binary64.nearest` finds it (`nearest_spec`), as does `Binary64.ofDecimal` for decimals
(`ofDecimal_spec`).

Rounding happens on the grid of multiples of `2 ^ e`, where `e` is the least exponent with which the
quotient has a mantissa below `2 ^ 53`. On the grid it is rounding to a whole number
(`roundToEven_spec`); off the grid there are numbers only below it, and the least number of the grid
with a full mantissa is nearer than these (`nearer_of_grid`).
-/

namespace GraphFeed.Binary64

/-! ## 1. What is nearest -/

/-- A mantissa and an exponent that a finite number is kept with. -/
def Kept (m : Nat) (e : Int) : Prop :=
  m = 0 ∧ e = 0 ∨ 0 < m ∧ m < 2 ^ 53 ∧ -1074 ≤ e ∧ e ≤ 971 ∧ (2 ^ 52 ≤ m ∨ e = -1074)

/-- How far a finite number is from zero. -/
def size (m : Nat) (e : Int) : ℚ := m * 2 ^ e

/-- The middle between the greatest finite number and the number that would follow it. -/
def limit : ℚ := (2 ^ 54 - 1) * 2 ^ (970 : Int)

/-- Of two numbers the first is nearer, or as near and even while the other is odd. -/
def Nearer (q : ℚ) (m : Nat) (e : Int) (m' : Nat) (e' : Int) : Prop :=
  |q - size m e| < |q - size m' e'| ∨
    |q - size m e| = |q - size m' e'| ∧ m % 2 = 0 ∧ m' % 2 = 1

/-- **The number is nearest to `± q`**, with the given sign. -/
inductive Nearest (negative : Bool) (q : ℚ) : Binary64 → Prop
  | infinite (h : limit ≤ q) : Nearest negative q (.infinite negative)
  | finite {m : Nat} {e : Int} (h : q < limit) (hkept : Kept m e)
      (hnearest : ∀ m' e', Kept m' e' → (m' = m ∧ e' = e) ∨ Nearer q m e m' e') :
      Nearest negative q (.finite negative m e)

variable {negative : Bool} {q : ℚ} {m m' : Nat} {e e' : Int}

theorem Nearer.asymm (h : Nearer q m e m' e') : ¬Nearer q m' e' m e := by
  rintro (hlt | ⟨hsame, heven, hodd⟩)
  · rcases h with h | ⟨h, _⟩
    · exact absurd hlt (not_lt_of_gt h)
    · exact absurd hlt (not_lt_of_ge h.le)
  · rcases h with h | ⟨_, heven', _⟩
    · exact absurd h (not_lt_of_ge hsame.le)
    · omega

/-- **There is one nearest number at most.** -/
theorem Nearest.unique {x y : Binary64} (hx : Nearest negative q x) (hy : Nearest negative q y) :
    x = y := by
  cases hx with
  | infinite hlimit =>
    cases hy with
    | infinite => rfl
    | finite h => exact absurd h (not_lt_of_ge hlimit)
  | finite hlimit hkept hnearest =>
    cases hy with
    | infinite h => exact absurd hlimit (not_lt_of_ge h)
    | finite _ hkept' hnearest' =>
      rcases hnearest _ _ hkept' with ⟨rfl, rfl⟩ | hnearer
      · rfl
      · rcases hnearest' _ _ hkept with ⟨rfl, rfl⟩ | hnearer'
        · rfl
        · exact absurd hnearer' hnearer.asymm

/-! ## 2. Sizes -/

/-- The number of two to the power of an exponent in two to the power of a greater one. -/
theorem size_eq_size (m : Nat) {e e' : Int} (h : e ≤ e') :
    size m e' = size (m * 2 ^ (e' - e).toNat) e := by
  have hsplit : (2 : ℚ) ^ e' = 2 ^ (e' - e).toNat * 2 ^ e := by
    rw [← zpow_natCast, ← zpow_add₀ two_ne_zero]
    congr 1
    omega
  unfold size
  rw [hsplit]
  push_cast
  ring

theorem size_lt_size_iff (e : Int) : size m e < size m' e ↔ m < m' := by
  unfold size
  rw [mul_lt_mul_iff_left₀ (by positivity)]
  exact Nat.cast_lt

theorem size_inj_left (h : size m e = size m' e) : m = m' := by
  rcases Nat.lt_trichotomy m m' with hlt | hsame | hlt
  · exact absurd h ((size_lt_size_iff e).mpr hlt).ne
  · exact hsame
  · exact absurd h ((size_lt_size_iff e).mpr hlt).ne'

/-- Of two numbers of one size with a mantissa the one with the lower exponent has the greater one. -/
theorem exponent_le_of_size (hkept : Kept m e) (hkept' : Kept m' e') (h : size m e = size m' e') :
    e' ≤ e ∨ m = 0 := by
  by_contra! hlt
  obtain ⟨hlt, hm⟩ := hlt
  rw [size_eq_size m' hlt.le] at h
  have hmantissa := size_inj_left h
  have htwo : 2 ^ 1 ≤ 2 ^ (e' - e).toNat := Nat.pow_le_pow_right (by decide) (by omega)
  have hgreater : m' * 2 ≤ m := by
    rw [hmantissa]
    exact Nat.mul_le_mul_left m' htwo
  rcases hkept with ⟨hzero, _⟩ | ⟨_, hm53, he, _, hfull⟩
  · exact hm hzero
  · rcases hkept' with ⟨hzero, _⟩ | ⟨_, _, _, _, hfull'⟩
    · exact hm (by rw [hmantissa, hzero, Nat.zero_mul])
    · omega

theorem size_eq_zero_iff : size m e = 0 ↔ m = 0 := by
  unfold size
  rw [mul_eq_zero, Nat.cast_eq_zero, or_iff_left (by positivity)]

/-- **A finite number is kept in one way only.** -/
theorem kept_inj (hkept : Kept m e) (hkept' : Kept m' e') (h : size m e = size m' e') :
    m = m' ∧ e = e' := by
  by_cases hm : m = 0
  · have hm' : m' = 0 := size_eq_zero_iff.mp (h ▸ size_eq_zero_iff.mpr hm)
    rcases hkept with ⟨_, he⟩ | ⟨hpos, _⟩
    · rcases hkept' with ⟨_, he'⟩ | ⟨hpos, _⟩
      · exact ⟨hm.trans hm'.symm, he.trans he'.symm⟩
      · omega
    · omega
  · have hm' : m' ≠ 0 := fun hm' => hm (size_eq_zero_iff.mp (h ▸ size_eq_zero_iff.mpr hm'))
    have hle := (exponent_le_of_size hkept hkept' h).resolve_right hm
    have hge := (exponent_le_of_size hkept' hkept h.symm).resolve_right hm'
    obtain rfl : e = e' := Int.le_antisymm hge hle
    exact ⟨size_inj_left h, rfl⟩

/-! ## 3. Rounding to a whole number -/

section Whole

variable {num den : Nat}

/-- How far a quotient is from a whole number, in parts of its denominator. -/
def distance (num den k : Nat) : Int := |(num : Int) - k * den|

theorem distance_floor (num den : Nat) : distance num den (num / den) = num % den := by
  have hsplit : (num : Int) = num / den * den + num % den := (Int.ediv_mul_add_emod ..).symm
  have hrest : (num : Int) - (num / den : Nat) * den = (num % den : Nat) := by
    push_cast
    omega
  rw [distance, hrest, abs_of_nonneg (Int.natCast_nonneg _)]
  push_cast
  rfl

theorem distance_ceil (num : Nat) {den : Nat} (hden : 0 < den) :
    distance num den (num / den + 1) = den - num % den := by
  have hsplit : (num : Int) = num / den * den + num % den := (Int.ediv_mul_add_emod ..).symm
  have hlt : num % den < den := Nat.mod_lt num hden
  have hrest : (num : Int) - (num / den + 1 : Nat) * den = -(den - num % den : Nat) := by
    push_cast [hlt.le]
    linarith
  rw [distance, hrest, abs_neg, abs_of_nonneg (Int.natCast_nonneg _)]
  push_cast [hlt.le]
  rfl

/-- Every other whole number is a denominator away at least. -/
theorem le_distance (hden : 0 < den) {k : Nat} (hfloor : k ≠ num / den) (hceil : k ≠ num / den + 1) :
    (den : Int) ≤ distance num den k := by
  have hsplit : num = num / den * den + num % den := (Nat.div_add_mod' num den).symm
  have hlt : num % den < den := Nat.mod_lt num hden
  rcases Nat.lt_or_gt_of_ne hfloor with h | h
  · have hmul : (k + 1) * den ≤ num / den * den := Nat.mul_le_mul_right den h
    have hle : ((k + 1) * den : Int) ≤ num := by
      exact_mod_cast hmul.trans (by omega)
    exact le_trans (by linarith) (le_abs_self _)
  · have hmul : (num / den + 2) * den ≤ k * den := Nat.mul_le_mul_right den (by omega)
    have hle : (num + den : Int) ≤ k * den := by
      exact_mod_cast le_trans (by rw [Nat.add_mul]; omega) hmul
    exact le_trans (by linarith) (neg_le_abs _)

/-- **No whole number is nearer than the one that is rounded to**, and one that is as near is odd. -/
theorem roundToEven_spec (num : Nat) {den : Nat} (hden : 0 < den) (k : Nat) :
    k = roundToEven num den ∨
    distance num den (roundToEven num den) < distance num den k ∨
    distance num den (roundToEven num den) = distance num den k ∧
      roundToEven num den % 2 = 0 ∧ k % 2 = 1 := by
  have hlt : num % den < den := Nat.mod_lt num hden
  have hfloor := distance_floor num den
  have hceil := distance_ceil num hden
  have hother : k = num / den ∨ k = num / den + 1 ∨ (den : Int) ≤ distance num den k := by
    by_cases hk : k = num / den
    · exact .inl hk
    · by_cases hk' : k = num / den + 1
      · exact .inr (.inl hk')
      · exact .inr (.inr (le_distance hden hk hk'))
  unfold roundToEven
  dsimp only
  rcases hother with rfl | rfl | hfar
  all_goals split_ifs
  all_goals omega

theorem roundToEven_le {bound : Nat} (hden : 0 < den) (h : num ≤ bound * den) :
    roundToEven num den ≤ bound := by
  have hfloor : num / den ≤ bound := (Nat.div_le_iff_le_mul_add_pred hden).mpr (by
    rw [Nat.mul_comm den]
    omega)
  have hsplit := Nat.div_add_mod' num den
  unfold roundToEven
  dsimp only
  rcases hfloor.lt_or_eq with hlt | heq
  · split_ifs
    all_goals omega
  · rw [heq] at hsplit
    rw [if_pos (by omega)]
    exact hfloor

theorem le_roundToEven {bound : Nat} (hden : 0 < den) (h : bound * den ≤ num) :
    bound ≤ roundToEven num den := by
  have hfloor : bound ≤ num / den := (Nat.le_div_iff_mul_le hden).mpr h
  unfold roundToEven
  dsimp only
  split_ifs
  all_goals omega

/-- What is rounded to less than `2 ^ 53` lies below the middle between it and the number before. -/
theorem lt_middle (hden : 0 < den) (hnum : num < 2 ^ 53 * den) (h : roundToEven num den ≠ 2 ^ 53) :
    2 * num + den < 2 ^ 54 * den := by
  have hle : roundToEven num den ≤ 2 ^ 53 := roundToEven_le hden hnum.le
  have hlt : distance num den (roundToEven num den) < distance num den (2 ^ 53) := by
    rcases roundToEven_spec num hden (2 ^ 53) with hsame | hlt | ⟨_, _, hodd⟩
    · exact absurd hsame.symm h
    · exact hlt
    · exact absurd hodd (by decide)
  have hfar : distance num den (2 ^ 53) = 2 ^ 53 * den - num := by
    rw [distance, abs_sub_comm, abs_of_nonneg]
    · push_cast
      rfl
    · have hnum' : (num : Int) ≤ 2 ^ 53 * den := by exact_mod_cast hnum.le
      push_cast
      linarith
  have hnear : (num : Int) - roundToEven num den * den ≤ distance num den (roundToEven num den) :=
    le_abs_self _
  have hround : (roundToEven num den * den : Int) ≤ (2 ^ 53 - 1) * den := by
    refine mul_le_mul_of_nonneg_right ?_ (Int.natCast_nonneg den)
    omega
  have hresult : (2 * num + den : Int) < 2 ^ 54 * den := by linarith
  exact_mod_cast hresult

/-- What is rounded to `2 ^ 53` does not. -/
theorem middle_le (hden : 0 < den) (h : roundToEven num den = 2 ^ 53) :
    2 ^ 54 * den ≤ 2 * num + den := by
  have hle : distance num den (2 ^ 53) ≤ distance num den (2 ^ 53 - 1) := by
    rcases roundToEven_spec num hden (2 ^ 53 - 1) with hsame | hlt | ⟨htie, _⟩
    · exact absurd (hsame.trans h) (by decide)
    · exact h ▸ hlt.le
    · exact h ▸ htie.le
  have hnear : (2 ^ 53 * den - num : Int) ≤ distance num den (2 ^ 53) := by
    rw [distance, abs_sub_comm]
    push_cast
    exact le_abs_self _
  have hden' : (0 : Int) < den := by exact_mod_cast hden
  have hbefore : distance num den (2 ^ 53 - 1) = |(num : Int) - (2 ^ 53 - 1) * den| := rfl
  rw [hbefore] at hle
  have hresult : (2 ^ 54 * den : Int) ≤ 2 * num + den := by
    rcases abs_cases ((num : Int) - (2 ^ 53 - 1) * den) with ⟨habs, _⟩ | ⟨habs, _⟩
    · linarith
    · linarith
  exact_mod_cast hresult

end Whole

/-! ## 4. Rounding on a grid -/

section Grid

variable {num den : Nat}

/-- How far a quotient is from a number of the grid. -/
theorem abs_sub_size (hden : 0 < den) (hq : q = num / den * 2 ^ e) (k : Nat) :
    |q - size k e| = distance num den k * (2 ^ e / den) := by
  have hden' : (den : ℚ) ≠ 0 := by positivity
  have hsplit : q - size k e = ((num - k * den : Int) : ℚ) * (2 ^ e / den) := by
    rw [hq, size]
    push_cast
    field_simp
  rw [hsplit, abs_mul, abs_of_nonneg (a := (2 : ℚ) ^ e / den) (by positivity), distance]
  push_cast
  rfl

/-- **On a grid, what a quotient is rounded to is the nearest number of all.** Numbers off the grid
    have a lower exponent, and lie below the least number of the grid with a full mantissa. -/
theorem nearer_of_grid (hden : 0 < den) (hq : q = num / den * 2 ^ e)
    (hfull : e = -1074 ∨ 2 ^ 52 * den ≤ num) (hkept : Kept m' e') :
    size m' e' = size (roundToEven num den) e ∨
      Nearer q (roundToEven num den) e m' e' := by
  have hscale : (0 : ℚ) < 2 ^ e / den := by positivity
  have hon : ∀ k, size m' e' = size k e → (k % 2 = 1 → m' % 2 = 1) →
      size m' e' = size (roundToEven num den) e ∨ Nearer q (roundToEven num den) e m' e' := by
    intro k hsize hodd
    rw [Nearer, hsize, abs_sub_size hden hq, abs_sub_size hden hq]
    rcases roundToEven_spec num hden k with rfl | hlt | ⟨htie, heven, hk⟩
    · exact .inl rfl
    · exact .inr (.inl (mul_lt_mul_of_pos_right (by exact_mod_cast hlt) hscale))
    · exact .inr (.inr ⟨by rw [htie], heven, hodd hk⟩)
  rcases hkept with ⟨rfl, rfl⟩ | ⟨_, hm53, hlow, _, _⟩
  · exact hon 0 (by rw [size, size, Nat.cast_zero, zero_mul, zero_mul]) (by decide)
  · by_cases hle : e ≤ e'
    · refine hon (m' * 2 ^ (e' - e).toNat) (size_eq_size m' hle) fun hodd => ?_
      exact Nat.odd_iff.mp (Nat.odd_mul.mp (Nat.odd_iff.mpr hodd)).1
    · have hnum : 2 ^ 52 * den ≤ num := hfull.resolve_left (by omega)
      have hbelow : size m' e' < size (2 ^ 52) e := by
        have htwo : 2 ^ 1 ≤ 2 ^ (e - e').toNat := Nat.pow_le_pow_right (by decide) (by omega)
        rw [size_eq_size (2 ^ 52) (by omega : e' ≤ e), size_lt_size_iff]
        omega
      have hgrid : |q - size (roundToEven num den) e| ≤ |q - size (2 ^ 52) e| := by
        rw [abs_sub_size hden hq, abs_sub_size hden hq]
        refine mul_le_mul_of_nonneg_right ?_ hscale.le
        rcases roundToEven_spec num hden (2 ^ 52) with hsame | hlt | ⟨htie, _⟩
        · rw [← hsame]
        · exact_mod_cast hlt.le
        · exact_mod_cast htie.le
      have habove : size (2 ^ 52) e ≤ q := by
        rw [hq, size]
        refine mul_le_mul_of_nonneg_right ?_ (by positivity)
        rw [le_div_iff₀ (by positivity)]
        exact_mod_cast hnum
      refine .inr (.inl (hgrid.trans_lt ?_))
      rw [abs_of_nonneg (sub_nonneg.mpr habove), abs_of_nonneg (by linarith)]
      linarith

/-- **What a quotient is rounded to is nearest to it**, if it is kept so and the quotient lies below the
    limit. -/
theorem nearest_of_grid (hden : 0 < den) (hq : q = num / den * 2 ^ e)
    (hfull : e = -1074 ∨ 2 ^ 52 * den ≤ num) (hlimit : q < limit) (hkept : Kept m e')
    (hsize : size m e' = size (roundToEven num den) e)
    (heven : roundToEven num den % 2 = 0 → m % 2 = 0) :
    Nearest negative q (.finite negative m e') := by
  refine .finite hlimit hkept fun m'' e'' hkept' => ?_
  rcases nearer_of_grid hden hq hfull hkept' with hsame | hlt | ⟨htie, hround, hodd⟩
  · exact .inl (kept_inj hkept' hkept (hsame.trans hsize.symm))
  · exact .inr (.inl (hsize ▸ hlt))
  · exact .inr (.inr ⟨hsize ▸ htie, heven hround, hodd⟩)

/-- A quotient that is rounded to `2 ^ 53` on the grid of the greatest exponent reaches the limit, and
    so does every full one on a coarser grid. -/
theorem limit_le (hden : 0 < den) (hq : q = num / den * 2 ^ e)
    (hfull : 2 ^ 52 * den ≤ num) (he : e = 971 ∧ roundToEven num den = 2 ^ 53 ∨ 972 ≤ e) :
    limit ≤ q := by
  have hden' : (0 : ℚ) < den := by positivity
  rw [hq, limit]
  rcases he with ⟨rfl, hround⟩ | he
  · have hmiddle : (2 ^ 54 * den : ℚ) ≤ 2 * num + den := by exact_mod_cast middle_le hden hround
    have hhalf : (2 ^ 54 - 1 : ℚ) ≤ num / den * 2 := by
      rw [div_mul_eq_mul_div, le_div_iff₀ hden']
      linarith
    rw [show (971 : Int) = 1 + 970 from rfl, zpow_add₀ two_ne_zero, zpow_one, ← mul_assoc]
    exact mul_le_mul_of_nonneg_right hhalf (by positivity)
  · have hquotient : (2 ^ 52 : ℚ) ≤ num / den := by
      rw [le_div_iff₀ hden']
      exact_mod_cast hfull
    have hpower : (2 : ℚ) ^ (972 : Int) ≤ 2 ^ e := zpow_le_zpow_right₀ one_le_two he
    calc (2 ^ 54 - 1 : ℚ) * 2 ^ (970 : Int)
        ≤ 2 ^ 54 * 2 ^ (970 : Int) := mul_le_mul_of_nonneg_right (by linarith) (by positivity)
      _ = 2 ^ 52 * 2 ^ (972 : Int) := by
        rw [show (972 : Int) = 2 + 970 from rfl, zpow_add₀ two_ne_zero]
        ring
      _ ≤ num / den * 2 ^ e := mul_le_mul hquotient hpower (by positivity) (by positivity)

/-- Any other quotient lies below the limit. -/
theorem lt_limit (hden : 0 < den) (hq : q = num / den * 2 ^ e) (hnum : num < 2 ^ 53 * den)
    (he : e ≤ 970 ∨ e = 971 ∧ roundToEven num den ≠ 2 ^ 53) : q < limit := by
  have hden' : (0 : ℚ) < den := by positivity
  rw [hq, limit]
  rcases he with he | ⟨rfl, hround⟩
  · have hquotient : (num / den : ℚ) < 2 ^ 53 := by
      rw [div_lt_iff₀ hden']
      exact_mod_cast hnum
    have hpower : (2 : ℚ) ^ e ≤ 2 ^ (970 : Int) := zpow_le_zpow_right₀ one_le_two he
    calc (num / den : ℚ) * 2 ^ e
        < 2 ^ 53 * 2 ^ (970 : Int) :=
          mul_lt_mul hquotient hpower (by positivity) (by positivity)
      _ ≤ (2 ^ 54 - 1) * 2 ^ (970 : Int) := mul_le_mul_of_nonneg_right (by norm_num) (by positivity)
  · have hmiddle : (2 * num + den : ℚ) < 2 ^ 54 * den := by exact_mod_cast lt_middle hden hnum hround
    have hhalf : (num / den * 2 : ℚ) < 2 ^ 54 - 1 := by
      rw [div_mul_eq_mul_div, div_lt_iff₀ hden']
      linarith
    rw [show (971 : Int) = 1 + 970 from rfl, zpow_add₀ two_ne_zero, zpow_one, ← mul_assoc]
    exact mul_lt_mul_of_pos_right hhalf (by positivity)

end Grid

/-! ## 5. Quotients and decimals -/

theorem scaled_spec (num : Nat) {den : Nat} (hden : 0 < den) (e : Int) :
    0 < (scaled num den e).2 ∧
      (num / den : ℚ) = (scaled num den e).1 / (scaled num den e).2 * 2 ^ e := by
  have hden' : (den : ℚ) ≠ 0 := by positivity
  unfold scaled
  split_ifs with he
  · have hpower : (2 : ℚ) ^ e = 2 ^ e.toNat := by
      rw [← zpow_natCast, Int.toNat_of_nonneg he]
    refine ⟨Nat.mul_pos hden (Nat.two_pow_pos _), ?_⟩
    rw [hpower]
    change (num / den : ℚ) = num / ((den * 2 ^ e.toNat : Nat) : ℚ) * 2 ^ e.toNat
    push_cast
    field_simp
  · have hpower : (2 : ℚ) ^ e = (2 ^ (-e).toNat)⁻¹ := by
      rw [← zpow_natCast, ← zpow_neg, Int.toNat_of_nonneg (by omega), neg_neg]
    refine ⟨hden, ?_⟩
    rw [hpower]
    change (num / den : ℚ) = ((num * 2 ^ (-e).toNat : Nat) : ℚ) / den * (2 ^ (-e).toNat)⁻¹
    push_cast
    field_simp

/-- **The order of a quotient is the power of two that it reaches.** -/
theorem binaryOrder_spec {num den : Nat} (hnum : 0 < num) (hden : 0 < den) :
    (2 : ℚ) ^ binaryOrder num den ≤ num / den ∧ (num / den : ℚ) < 2 ^ (binaryOrder num den + 1) := by
  have hden' : (0 : ℚ) < den := by positivity
  -- within a factor of two on either side, by the powers of two that both parts reach
  have hlow : (2 : ℚ) ^ ((num.log2 : Int) - den.log2 - 1) ≤ num / den := by
    have hn : (2 : ℚ) ^ num.log2 ≤ num := by exact_mod_cast Nat.log2_self_le hnum.ne'
    have hd : (den : ℚ) ≤ 2 ^ (den.log2 + 1) := by exact_mod_cast Nat.lt_log2_self.le
    rw [sub_sub, zpow_sub₀ two_ne_zero, zpow_natCast, ← Nat.cast_succ, zpow_natCast]
    exact div_le_div₀ (by positivity) hn hden' hd
  have hhigh : (num / den : ℚ) < 2 ^ ((num.log2 : Int) - den.log2 + 1) := by
    have hn : (num : ℚ) < 2 ^ (num.log2 + 1) := by exact_mod_cast Nat.lt_log2_self
    have hd : (2 : ℚ) ^ den.log2 ≤ den := by exact_mod_cast Nat.log2_self_le hden.ne'
    rw [sub_add_eq_add_sub, zpow_sub₀ two_ne_zero, ← Nat.cast_succ, zpow_natCast, zpow_natCast]
    exact div_lt_div₀ hn hd (by positivity) (by positivity)
  unfold binaryOrder
  dsimp only
  generalize (num.log2 : Int) - den.log2 = k at *
  obtain ⟨hpos, hscaled⟩ := scaled_spec num hden k
  have hpos' : (0 : ℚ) < (scaled num den k).2 := by positivity
  have hpower : (0 : ℚ) < 2 ^ k := by positivity
  split_ifs with hle
  · have hone : (1 : ℚ) ≤ (scaled num den k).1 / (scaled num den k).2 := by
      rw [one_le_div hpos']
      exact_mod_cast hle
    refine ⟨?_, hhigh⟩
    rw [hscaled]
    exact le_mul_of_one_le_left hpower.le hone
  · have hone : ((scaled num den k).1 / (scaled num den k).2 : ℚ) < 1 := by
      rw [div_lt_one hpos']
      exact_mod_cast not_le.mp hle
    refine ⟨hlow, ?_⟩
    rw [sub_add_cancel, hscaled]
    exact mul_lt_of_lt_one_left hpower hone

/-- A quotient on the grid that its mantissa has room on. -/
theorem exists_grid {num den : Nat} (hnum : 0 < num) (hden : 0 < den) (e : Int)
    (he : e = max (binaryOrder num den - 52) (-1074)) :
    0 < (scaled num den e).2 ∧
      (num / den : ℚ) = (scaled num den e).1 / (scaled num den e).2 * 2 ^ e ∧
      (scaled num den e).1 < 2 ^ 53 * (scaled num den e).2 ∧
      (e = -1074 ∨ 2 ^ 52 * (scaled num den e).2 ≤ (scaled num den e).1) := by
  obtain ⟨hpos, hscaled⟩ := scaled_spec num hden e
  obtain ⟨hlow, hhigh⟩ := binaryOrder_spec hnum hden
  have hpos' : (0 : ℚ) < (scaled num den e).2 := by positivity
  have hpower : (0 : ℚ) < 2 ^ e := by positivity
  refine ⟨hpos, hscaled, ?_, or_iff_not_imp_left.mpr fun hne => ?_⟩
  · have hbelow : (num / den : ℚ) < 2 ^ 53 * 2 ^ e := by
      rw [← zpow_natCast, ← zpow_add₀ two_ne_zero]
      exact hhigh.trans_le (zpow_le_zpow_right₀ one_le_two (by push_cast; omega))
    rw [hscaled, mul_lt_mul_iff_left₀ hpower, div_lt_iff₀ hpos'] at hbelow
    exact_mod_cast hbelow
  · have habove : (2 ^ 52 * 2 ^ e : ℚ) ≤ num / den := by
      rw [← zpow_natCast, ← zpow_add₀ two_ne_zero]
      exact (zpow_le_zpow_right₀ one_le_two (by push_cast; omega)).trans hlow
    rw [hscaled, mul_le_mul_iff_left₀ hpower, le_div_iff₀ hpos'] at habove
    exact_mod_cast habove

/-- **Zero is nearest to what lies below half of the least number.** -/
theorem nearest_zero (hnonneg : 0 ≤ q) (hq : 2 * q < 2 ^ (-1074 : Int)) :
    Nearest negative q (.finite negative 0 0) := by
  have hlimit : q < limit := by
    have hsmall : (2 : ℚ) ^ (-1074 : Int) ≤ 2 ^ (970 : Int) := zpow_le_zpow_right₀ one_le_two (by decide)
    have hone : (2 : ℚ) ^ (970 : Int) ≤ limit :=
      le_mul_of_one_le_left (by positivity) (by norm_num)
    calc q ≤ 2 * q := le_mul_of_one_le_left hnonneg one_le_two
      _ < 2 ^ (-1074 : Int) := hq
      _ ≤ 2 ^ (970 : Int) := hsmall
      _ ≤ limit := hone
  refine .finite hlimit (.inl ⟨rfl, rfl⟩) fun m' e' hkept => ?_
  rcases hkept with ⟨rfl, rfl⟩ | ⟨hpos, _, he, _⟩
  · exact .inl ⟨rfl, rfl⟩
  · have hleast : (2 : ℚ) ^ (-1074 : Int) ≤ size m' e' := by
      have hmantissa : (1 : ℚ) ≤ m' := by exact_mod_cast hpos
      have hpower : (2 : ℚ) ^ (-1074 : Int) ≤ 2 ^ e' := zpow_le_zpow_right₀ one_le_two he
      exact hpower.trans (le_mul_of_one_le_left (by positivity) hmantissa)
    have hzero : size 0 0 = 0 := size_eq_zero_iff.mpr rfl
    refine .inr (.inl ?_)
    rw [hzero, sub_zero, abs_of_nonneg hnonneg, abs_sub_comm, abs_of_nonneg (by linarith)]
    linarith

/-- **`nearest` finds the number nearest to a quotient.** -/
theorem nearest_spec (negative : Bool) (num : Nat) {den : Nat} (hden : 0 < den) :
    Nearest negative (num / den) (nearest negative num den) := by
  unfold nearest
  split_ifs with hzero
  · rw [hzero, Nat.cast_zero, zero_div]
    exact nearest_zero le_rfl (by rw [mul_zero]; positivity)
  · obtain ⟨hpos, hq, hnum, hfull⟩ := exists_grid (Nat.pos_of_ne_zero hzero) hden _ rfl
    have hlow : -1074 ≤ max (binaryOrder num den - 52) (-1074) := le_max_right ..
    dsimp only
    rw [show Nat.pow 2 53 = 2 ^ 53 from rfl, show Nat.pow 2 52 = 2 ^ 52 from rfl]
    generalize max (binaryOrder num den - 52) (-1074) = e at *
    generalize (scaled num den e).1 = n at *
    generalize (scaled num den e).2 = d at *
    have hround : roundToEven n d ≤ 2 ^ 53 := roundToEven_le hpos hnum.le
    have hround' : e = -1074 ∨ 2 ^ 52 ≤ roundToEven n d := hfull.imp_right (le_roundToEven hpos)
    by_cases hcarry : roundToEven n d = 2 ^ 53
    · -- the mantissa is one digit too long; it is even, with that digit and without it
      have hsize : size (2 ^ 52) (e + 1) = size (roundToEven n d) e := by
        rw [size_eq_size (2 ^ 52) (by omega : e ≤ e + 1), hcarry, add_sub_cancel_left]
        rfl
      rw [if_pos hcarry]
      dsimp only
      split_ifs with hlimit hnone
      · exact .infinite (limit_le hpos hq (hfull.resolve_left (by omega)) (by omega))
      · exact absurd hnone (by decide)
      · have hkept : Kept (2 ^ 52) (e + 1) := .inr ⟨by decide, by decide, by omega, by omega, .inl le_rfl⟩
        exact nearest_of_grid hpos hq hfull (lt_limit hpos hq hnum (.inl (by omega))) hkept hsize
          fun _ => rfl
    · rw [if_neg hcarry]
      dsimp only
      split_ifs with hlimit hnone
      · exact .infinite (limit_le hpos hq (hfull.resolve_left (by omega)) (.inr (by omega)))
      · have hsize : size 0 0 = size (roundToEven n d) e := by
          rw [size_eq_zero_iff.mpr rfl, size_eq_zero_iff.mpr hnone]
        exact nearest_of_grid hpos hq hfull (lt_limit hpos hq hnum (.inl (by omega))) (.inl ⟨rfl, rfl⟩)
          hsize fun _ => rfl
      · have hkept : Kept (roundToEven n d) e :=
          .inr ⟨Nat.pos_of_ne_zero hnone, by omega, hlow, by omega, hround'.symm⟩
        exact nearest_of_grid hpos hq hfull (lt_limit hpos hq hnum (by omega)) hkept rfl id

/-- The order of magnitude of a whole number by its digits. -/
theorem digits_bounds {digits : Nat} (h : 0 < digits) :
    (10 : ℚ) ^ ((Nat.toDigits 10 digits).length - 1 : Int) ≤ digits ∧
      (digits : ℚ) < 10 ^ ((Nat.toDigits 10 digits).length : Int) := by
  have hpos : 0 < (Nat.toDigits 10 digits).length := List.length_pos_of_ne_nil Nat.toDigits_ne_nil
  have hlt := (Nat.length_toDigits_le_iff (by decide) hpos).mp (le_refl (Nat.toDigits 10 digits).length)
  constructor
  · obtain ⟨n, hn⟩ := Nat.exists_eq_succ_of_ne_zero hpos.ne'
    rw [hn, Nat.cast_succ, add_sub_cancel_right, zpow_natCast]
    rcases Nat.eq_zero_or_pos n with rfl | hn'
    · exact_mod_cast h
    · have hge : ¬digits < 10 ^ n := fun hlt =>
        absurd ((Nat.length_toDigits_le_iff (by decide) hn').mpr hlt) (by omega)
      exact_mod_cast not_lt.mp hge
  · rw [zpow_natCast]
    exact_mod_cast hlt

theorem two_zpow_le_ten_zpow (n : Nat) : (2 : ℚ) ^ (3 * n : Int) ≤ 10 ^ (n : Int) := by
  rw [zpow_mul, zpow_natCast, zpow_natCast]
  exact pow_le_pow_left₀ (by positivity) (by norm_num) n

/-- A decimal whose order of magnitude is above four hundred is beyond all numbers. -/
theorem limit_le_of_length {digits : Nat} {exponent : Int} (h : 0 < digits)
    (hlarge : 400 < (Nat.toDigits 10 digits).length + exponent) : limit ≤ digits * 10 ^ exponent := by
  obtain ⟨hlow, _⟩ := digits_bounds h
  have hpower : (10 : ℚ) ^ (400 : Int) ≤ 10 ^ ((Nat.toDigits 10 digits).length - 1 : Int) * 10 ^ exponent := by
    rw [← zpow_add₀ (by norm_num)]
    exact zpow_le_zpow_right₀ (by norm_num) (by omega)
  calc limit ≤ 2 ^ (54 : Int) * 2 ^ (970 : Int) :=
        mul_le_mul_of_nonneg_right (by norm_num) (by positivity)
    _ = 2 ^ (1024 : Int) := by rw [← zpow_add₀ two_ne_zero]; rfl
    _ ≤ 2 ^ (3 * 400 : Int) := zpow_le_zpow_right₀ one_le_two (by decide)
    _ ≤ 10 ^ (400 : Int) := two_zpow_le_ten_zpow 400
    _ ≤ _ := hpower
    _ ≤ digits * 10 ^ exponent := mul_le_mul_of_nonneg_right hlow (by positivity)

/-- One whose order of magnitude is below minus four hundred is below half of the least number. -/
theorem lt_least_of_length {digits : Nat} {exponent : Int} (h : 0 < digits)
    (hsmall : (Nat.toDigits 10 digits).length + exponent < -400) :
    2 * (digits * 10 ^ exponent : ℚ) < 2 ^ (-1074 : Int) := by
  obtain ⟨_, hhigh⟩ := digits_bounds h
  have hpower : (10 : ℚ) ^ ((Nat.toDigits 10 digits).length : Int) * 10 ^ exponent ≤ 10 ^ (-401 : Int) := by
    rw [← zpow_add₀ (by norm_num)]
    exact zpow_le_zpow_right₀ (by norm_num) (by omega)
  calc 2 * (digits * 10 ^ exponent : ℚ)
      ≤ 2 * (10 ^ ((Nat.toDigits 10 digits).length : Int) * 10 ^ exponent) := by gcongr
    _ ≤ 2 * 10 ^ (-401 : Int) := mul_le_mul_of_nonneg_left hpower zero_le_two
    _ = 2 / 10 ^ (401 : Int) := by rw [zpow_neg, div_eq_mul_inv]
    _ ≤ 2 / 2 ^ (3 * 401 : Int) :=
        div_le_div_of_nonneg_left zero_le_two (by positivity) (two_zpow_le_ten_zpow 401)
    _ = 2 ^ (-1202 : Int) := by
        rw [show (-1202 : Int) = 1 - 3 * 401 from rfl, zpow_sub₀ two_ne_zero, zpow_one]
    _ < 2 ^ (-1074 : Int) := zpow_lt_zpow_right₀ one_lt_two (by decide)

/-- **`ofDecimal` finds the number nearest to a decimal.** -/
theorem ofDecimal_spec (negative : Bool) (digits : Nat) (exponent : Int) :
    Nearest negative (digits * 10 ^ exponent) (ofDecimal negative digits exponent) := by
  unfold ofDecimal
  dsimp only
  split_ifs with hzero hlarge hsmall hwhole
  · rw [hzero, Nat.cast_zero, zero_mul]
    exact nearest_zero le_rfl (by rw [mul_zero]; positivity)
  · exact .infinite (limit_le_of_length (Nat.pos_of_ne_zero hzero) hlarge)
  · exact nearest_zero (by positivity) (lt_least_of_length (Nat.pos_of_ne_zero hzero) hsmall)
  · have hq : (digits * 10 ^ exponent : ℚ) = (digits * 10 ^ exponent.toNat : Nat) / (1 : Nat) := by
      rw [← Int.toNat_of_nonneg hwhole, zpow_natCast]
      push_cast
      rw [div_one, Int.toNat_natCast]
    rw [hq]
    exact nearest_spec negative _ Nat.one_pos
  · have hq : (digits * 10 ^ exponent : ℚ) = digits / (10 ^ (-exponent).toNat : Nat) := by
      have hexponent : exponent = -((-exponent).toNat : Int) := by omega
      rw [hexponent, zpow_neg, zpow_natCast]
      push_cast
      rw [← hexponent, div_eq_mul_inv]
    rw [hq]
    exact nearest_spec negative digits (Nat.pow_pos (by decide))

end GraphFeed.Binary64
