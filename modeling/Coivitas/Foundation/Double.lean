import Mathlib.Algebra.Order.Round
import Mathlib.Data.Int.Log
import Mathlib.Data.Rat.Floor
import Mathlib.Tactic.Linarith
import Mathlib.Tactic.Ring

/-! # Double precision

The numbers of a double, as rational numbers, and the one that is nearest to a rational number: a
number is rounded to a multiple of the unit in its last place, and of two that are equally near to
the even multiple.
-/

namespace Foundation.Double

/-- The integer nearest to a number, of two the even one. -/
def roundEven (q : ℚ) : ℤ :=
  if Int.fract q < 1 / 2 then ⌊q⌋
  else if 1 / 2 < Int.fract q then ⌊q⌋ + 1
  else if ⌊q⌋ % 2 = 0 then ⌊q⌋
  else ⌊q⌋ + 1

/-- The unit in the last place is a power of two with this exponent: 53 digits are significant,
and none is below the `1074`th binary place. -/
def ulpExponent (q : ℚ) : ℤ := max (Int.log 2 |q| - 52) (-1074)

/-- The unit in the last place. -/
def ulp (q : ℚ) : ℚ := 2 ^ ulpExponent q

/-- The nearest number with the precision of a double, whatever its magnitude. -/
def nearest (q : ℚ) : ℚ := roundEven (q / ulp q) * ulp q

/-- A number with the precision of a double. -/
def IsDouble (q : ℚ) : Prop := ∃ m k : ℤ, |m| ≤ 2 ^ 53 ∧ -1074 ≤ k ∧ q = m * 2 ^ k

/-- The bound of the finite doubles. -/
def limit : ℚ := 2 ^ 1024

theorem two_zpow_pos (k : ℤ) : (0 : ℚ) < 2 ^ k := zpow_pos (by norm_num) k

theorem ulp_pos (q : ℚ) : 0 < ulp q := two_zpow_pos _

theorem roundEven_intCast (n : ℤ) : roundEven n = n := by
  simp [roundEven]

theorem floor_le_roundEven (q : ℚ) : ⌊q⌋ ≤ roundEven q := by
  unfold roundEven
  split_ifs <;> omega

theorem roundEven_le_ceil (q : ℚ) : roundEven q ≤ ⌈q⌉ := by
  have hfract : ¬ Int.fract q < 1 / 2 → ⌊q⌋ + 1 ≤ ⌈q⌉ := by
    intro hhalf
    have hpos : (0 : ℚ) < Int.fract q := by linarith
    have hlt : (⌊q⌋ : ℚ) < q := by
      have hsum := Int.floor_add_fract q
      linarith
    exact Int.add_one_le_iff.mpr (Int.lt_ceil.mpr hlt)
  have hle : ⌊q⌋ ≤ ⌈q⌉ := Int.floor_le_ceil q
  unfold roundEven
  split_ifs with hlow hhigh heven
  · exact hle
  · exact hfract hlow
  · exact hle
  · exact hfract hlow

theorem abs_roundEven_le {q : ℚ} {n : ℤ} (hq : |q| ≤ n) : |roundEven q| ≤ n := by
  obtain ⟨hlow, hhigh⟩ := abs_le.mp hq
  refine abs_le.mpr ⟨?_, ?_⟩
  · exact (Int.le_floor.mpr (by exact_mod_cast hlow)).trans (floor_le_roundEven q)
  · exact (roundEven_le_ceil q).trans (Int.ceil_le.mpr hhigh)

/-- A number has at most 53 digits before its last place. -/
theorem abs_le_ulp (q : ℚ) : |q| ≤ 2 ^ 53 * ulp q := by
  have hlog : |q| < (2 : ℚ) ^ (Int.log 2 |q| + 1) := by
    exact_mod_cast Int.lt_zpow_succ_log_self (by decide : 1 < 2) |q|
  have hexponent : Int.log 2 |q| + 1 ≤ 53 + ulpExponent q := by
    have hmax := le_max_left (Int.log 2 |q| - 52) (-1074)
    unfold ulpExponent
    omega
  calc |q| ≤ (2 : ℚ) ^ (Int.log 2 |q| + 1) := hlog.le
    _ ≤ (2 : ℚ) ^ (53 + ulpExponent q) := zpow_le_zpow_right₀ (by norm_num) hexponent
    _ = 2 ^ 53 * ulp q := by
      rw [zpow_add₀ (by norm_num), ulp]
      norm_num

theorem isDouble_nearest (q : ℚ) : IsDouble (nearest q) := by
  refine ⟨roundEven (q / ulp q), ulpExponent q, abs_roundEven_le ?_, le_max_right _ _, rfl⟩
  rw [abs_div, abs_of_pos (ulp_pos q), div_le_iff₀ (ulp_pos q)]
  exact_mod_cast abs_le_ulp q

/-- The last place of a number with the precision of a double is not before its last digit. -/
theorem ulpExponent_le {m k : ℤ} (hm : |m| < 2 ^ 53) (hk : -1074 ≤ k) :
    m = 0 ∨ ulpExponent ((m : ℚ) * 2 ^ k) ≤ k := by
  rcases eq_or_ne m 0 with rfl | hne
  · exact .inl rfl
  · right
    have hpos : (0 : ℚ) < |(m : ℚ) * 2 ^ k| :=
      abs_pos.mpr (mul_ne_zero (by exact_mod_cast hne) (two_zpow_pos k).ne')
    have hlt : |(m : ℚ) * 2 ^ k| < (2 : ℚ) ^ (53 + k) := by
      rw [abs_mul, abs_of_pos (two_zpow_pos k), zpow_add₀ (by norm_num)]
      refine mul_lt_mul_of_pos_right ?_ (two_zpow_pos k)
      exact_mod_cast hm
    have hlog : Int.log 2 |(m : ℚ) * 2 ^ k| < 53 + k :=
      (Int.lt_zpow_iff_log_lt (b := 2) (by norm_num) hpos).mp (by exact_mod_cast hlt)
    unfold ulpExponent
    omega

theorem nearest_of_isDouble {q : ℚ} (hq : IsDouble q) : nearest q = q := by
  -- The bound itself is half of its value with one place less.
  obtain ⟨m, k, hm, hk, rfl⟩ : ∃ m k : ℤ, |m| < 2 ^ 53 ∧ -1074 ≤ k ∧ q = m * 2 ^ k := by
    obtain ⟨m, k, hm, hk, rfl⟩ := hq
    rcases hm.lt_or_eq with hlt | heq
    · exact ⟨m, k, hlt, hk, rfl⟩
    · refine ⟨m / 2, k + 1, ?_, by omega, ?_⟩
      · rcases abs_choice m with habs | habs <;> rw [abs_lt] <;> omega
      · have heven : m = 2 * (m / 2) := by
          rcases abs_choice m with habs | habs <;> omega
        rw [zpow_add_one₀ (by norm_num)]
        conv_lhs => rw [heven]
        push_cast
        ring
  unfold nearest
  rcases ulpExponent_le hm hk with rfl | hle
  · simp [roundEven]
  · obtain ⟨d, hd⟩ := Int.le.dest hle
    have hquot : (m : ℚ) * 2 ^ k / ulp (m * 2 ^ k) = ((m * 2 ^ d : ℤ) : ℚ) := by
      have hpower : (2 : ℚ) ^ k = 2 ^ d * ulp (m * 2 ^ k) := by
        conv_lhs => rw [← hd, add_comm, zpow_add₀ (by norm_num), zpow_natCast]
        rfl
      rw [div_eq_iff (ulp_pos _).ne']
      conv_lhs => rw [hpower]
      push_cast
      ring
    rw [hquot, roundEven_intCast, ← hquot, div_mul_cancel₀ _ (ulp_pos _).ne']

theorem nearest_nearest (q : ℚ) : nearest (nearest q) = nearest q :=
  nearest_of_isDouble (isDouble_nearest q)

/-- Integers up to `2 ^ 53` are exact. -/
theorem isDouble_intCast {n : ℤ} (hn : |n| ≤ 2 ^ 53) : IsDouble n :=
  ⟨n, 0, hn, by decide, by simp⟩

end Foundation.Double
