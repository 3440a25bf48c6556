import Mathlib.Algebra.Order.Field.Power
import Mathlib.Data.Int.Log
import Mathlib.Tactic.Linarith
import Mathlib.Tactic.Positivity
import SecurityScanner.Lib.Binary64

/-!
# Rounding to binary64

A difference of floats is the float next to the exact one, and of two such floats the one with
the even significand. Floats are taken by their values; overflow is left out.
-/

namespace Binary64

/-- The distance of the floats in the binade of `q`. -/
def ulp (q : ℚ) : ℚ := 2 ^ max (Int.log 2 |q| - 52) (-1074)

def nearest (q : ℚ) : ℚ := roundHalfEven (q / ulp q) * ulp q

/-- `x - y`, for the values of floats. -/
def sub (x y : ℚ) : ℚ := nearest (x - y)

example : sub (exact 60.1) (exact 0.1) = exact (60.1 - 0.1) := by decide +kernel

section integers

variable {q : ℚ} {n : ℤ}

lemma roundHalfEven_le (h : q ≤ n) : roundHalfEven q ≤ n := by
  have hfloor : ⌊q⌋ ≤ n := Int.floor_le_iff.mpr (by linarith)
  unfold roundHalfEven
  dsimp only
  split_ifs with hdown
  · exact hfloor
  · -- an integer is not rounded up
    have hne : ⌊q⌋ ≠ n := by
      rintro rfl
      have hzero : q - ⌊q⌋ < 1 / 2 := by linarith
      exact hdown (Or.inl hzero)
    omega

lemma le_roundHalfEven (h : (n : ℚ) ≤ q) : n ≤ roundHalfEven q := by
  have hfloor : n ≤ ⌊q⌋ := Int.le_floor.mpr h
  unfold roundHalfEven
  dsimp only
  split_ifs
  · exact hfloor
  · omega

lemma lt_roundHalfEven (h : n + 1 / 2 < q) : n < roundHalfEven q := by
  have hfloor : n ≤ ⌊q⌋ := Int.le_floor.mpr (by linarith)
  unfold roundHalfEven
  dsimp only
  split_ifs with hdown
  · refine lt_of_le_of_ne hfloor ?_
    rintro rfl
    rcases hdown with hdown | ⟨hdown, -⟩ <;> linarith
  · omega

/-- A tie goes to the even integer. -/
lemma roundHalfEven_le_of_even (hn : n % 2 = 0) (h : q ≤ n + 1 / 2) : roundHalfEven q ≤ n := by
  have hfloor : ⌊q⌋ ≤ n := by
    have hlt : q < (n + 1 : ℤ) := by
      push_cast
      linarith
    exact Int.lt_add_one_iff.mp (Int.floor_lt.mpr hlt)
  unfold roundHalfEven
  dsimp only
  split_ifs with hdown
  · exact hfloor
  · have hne : ⌊q⌋ ≠ n := by
      rintro rfl
      obtain ⟨hbelow, htie⟩ := not_or.mp hdown
      have hhalf : q - ⌊q⌋ = 1 / 2 := by linarith
      exact htie ⟨hhalf, hn⟩
    omega

end integers

section floats

variable {q : ℚ} {n k : ℤ}

lemma ulp_pos (q : ℚ) : 0 < ulp q := by
  unfold ulp
  positivity

lemma log_eq (hlow : 2 ^ k ≤ q) (hhigh : q < 2 ^ (k + 1)) : Int.log 2 |q| = k := by
  have hpos : 0 < q := lt_of_lt_of_le (by positivity) hlow
  rw [abs_of_pos hpos]
  have hle : k ≤ Int.log 2 q := (Int.zpow_le_iff_le_log (by decide) hpos).mp (by simpa using hlow)
  have hlt : Int.log 2 q < k + 1 :=
    (Int.lt_zpow_iff_log_lt (by decide) hpos).mp (by simpa using hhigh)
  omega

/-- The distance of the floats between two powers of two. -/
lemma ulp_eq (hk : -1022 ≤ k) (hlow : 2 ^ k ≤ q) (hhigh : q < 2 ^ (k + 1)) :
    ulp q = 2 ^ (k - 52) := by
  unfold ulp
  rw [log_eq hlow hhigh, max_eq_left (by omega)]

lemma nearest_nonpos (h : q ≤ 0) : nearest q ≤ 0 := by
  have hround : roundHalfEven (q / ulp q) ≤ 0 :=
    roundHalfEven_le (by simpa using div_nonpos_of_nonpos_of_nonneg h (ulp_pos q).le)
  exact mul_nonpos_of_nonpos_of_nonneg (by exact_mod_cast hround) (ulp_pos q).le

lemma nearest_nonneg (h : 0 ≤ q) : 0 ≤ nearest q := by
  have hround : 0 ≤ roundHalfEven (q / ulp q) :=
    le_roundHalfEven (by simpa using div_nonneg h (ulp_pos q).le)
  exact mul_nonneg (by exact_mod_cast hround) (ulp_pos q).le

/-- Below `2 ^ 53` an integer is a multiple of the distance. -/
lemma exists_mul_ulp (hq : |q| < 2 ^ 53) (n : ℤ) : ∃ m : ℤ, (n : ℚ) = m * ulp q := by
  obtain ⟨e, he⟩ : ∃ e : ℕ, max (Int.log 2 |q| - 52) (-1074) = -(e : ℤ) := by
    have hlog : Int.log 2 |q| ≤ 52 := by
      by_cases hzero : |q| = 0
      · rw [hzero, Int.log_zero_right]
        decide
      · have hpos : 0 < |q| := lt_of_le_of_ne (abs_nonneg q) (Ne.symm hzero)
        have hlt : Int.log 2 |q| < 53 :=
          (Int.lt_zpow_iff_log_lt (by decide) hpos).mp (by exact_mod_cast hq)
        omega
    exact ⟨(-max (Int.log 2 |q| - 52) (-1074)).toNat, by omega⟩
  refine ⟨n * 2 ^ e, ?_⟩
  unfold ulp
  rw [he, zpow_neg, zpow_natCast]
  push_cast
  rw [mul_assoc, mul_inv_cancel₀ (by positivity), mul_one]

lemma nearest_le (hq : |q| < 2 ^ 53) (h : q ≤ n) : nearest q ≤ n := by
  obtain ⟨m, hm⟩ := exists_mul_ulp hq n
  have hround : roundHalfEven (q / ulp q) ≤ m := by
    refine roundHalfEven_le ((div_le_iff₀ (ulp_pos q)).mpr ?_)
    rwa [← hm]
  calc nearest q ≤ m * ulp q :=
        mul_le_mul_of_nonneg_right (by exact_mod_cast hround) (ulp_pos q).le
    _ = n := hm.symm

lemma le_nearest (hq : |q| < 2 ^ 53) (h : (n : ℚ) ≤ q) : n ≤ nearest q := by
  obtain ⟨m, hm⟩ := exists_mul_ulp hq n
  have hround : m ≤ roundHalfEven (q / ulp q) := by
    refine le_roundHalfEven ((le_div_iff₀ (ulp_pos q)).mpr ?_)
    rwa [← hm]
  calc (n : ℚ) = m * ulp q := hm
    _ ≤ nearest q := mul_le_mul_of_nonneg_right (by exact_mod_cast hround) (ulp_pos q).le

/-- Between two powers of two a number is rounded above a float exactly if it is past the middle
of it and the next one. -/
lemma lt_nearest_iff (hk : -1022 ≤ k) (hlow : 2 ^ k ≤ q) (hhigh : q < 2 ^ (k + 1))
    (hn : n % 2 = 0) : n * 2 ^ (k - 52) < nearest q ↔ (n + 1 / 2) * 2 ^ (k - 52) < q := by
  have hpos : (0 : ℚ) < 2 ^ (k - 52) := by positivity
  unfold nearest
  rw [ulp_eq hk hlow hhigh, mul_lt_mul_iff_left₀ hpos, ← lt_div_iff₀ hpos]
  constructor
  · intro h
    by_contra hle
    have hround : roundHalfEven (q / 2 ^ (k - 52)) ≤ n := roundHalfEven_le_of_even hn (not_lt.mp hle)
    exact absurd h (not_lt.mpr (by exact_mod_cast hround))
  · intro h
    exact_mod_cast lt_roundHalfEven h

/-- Rounding does not cross a power of two. -/
lemma zpow_le_nearest (hk : -1022 ≤ k) (h : 2 ^ k ≤ q) : 2 ^ k ≤ nearest q := by
  have hpos : 0 < q := lt_of_lt_of_le (by positivity) h
  have hlog : k ≤ Int.log 2 q := (Int.zpow_le_iff_le_log (by decide) hpos).mp (by simpa using h)
  have hlow : (2 : ℚ) ^ Int.log 2 q ≤ q := by simpa using Int.zpow_log_le_self (b := 2) (by decide) hpos
  have hhigh : q < 2 ^ (Int.log 2 q + 1) := by
    simpa using Int.lt_zpow_succ_log_self (b := 2) (by decide) q
  have hsignificand : ((2 ^ 52 : ℤ) : ℚ) * ulp q = 2 ^ Int.log 2 q := by
    have hexponent : (2 : ℚ) ^ (52 : ℤ) * 2 ^ (Int.log 2 q - 52) = 2 ^ Int.log 2 q := by
      rw [← zpow_add₀ (by decide), add_sub_cancel]
    rw [ulp_eq (hk.trans hlog) hlow hhigh, ← hexponent]
    norm_cast
  have hround : 2 ^ 52 ≤ roundHalfEven (q / ulp q) :=
    le_roundHalfEven ((le_div_iff₀ (ulp_pos q)).mpr (hsignificand.trans_le hlow))
  calc (2 : ℚ) ^ k ≤ 2 ^ Int.log 2 q := zpow_le_zpow_right₀ (by decide) hlog
    _ = ((2 ^ 52 : ℤ) : ℚ) * ulp q := hsignificand.symm
    _ ≤ nearest q := mul_le_mul_of_nonneg_right (by exact_mod_cast hround) (ulp_pos q).le

end floats

end Binary64
