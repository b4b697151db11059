import Mathlib

/-! Rounding to double precision: which numbers a double holds exactly, and that rounding does
not pass over a whole number up to 2 ^ 53. The exponent has no bounds here, so numbers too
large or too small for a double are not told apart. -/

namespace Doubles

/-- The nearest whole number; of two, the even one. -/
def roundHalfEven (x : ℚ) : Int :=
  let below := ⌊x⌋
  let rest := x - below
  if rest < 1 / 2 then below
  else if 1 / 2 < rest then below + 1
  else if below % 2 = 0 then below else below + 1

/-- The distance of the doubles next to `x`. -/
def spacing (x : ℚ) : ℚ := (2 : ℚ) ^ (Int.log 2 |x| - 52)

/-- The double nearest to `x`; of two, the one with the even significand. -/
def toDouble (x : ℚ) : ℚ := if x = 0 then 0 else roundHalfEven (x / spacing x) * spacing x

/-! ## Rounding to whole numbers -/

theorem floor_le_roundHalfEven (x : ℚ) : ⌊x⌋ ≤ roundHalfEven x := by
  unfold roundHalfEven
  dsimp only
  split_ifs <;> omega

@[simp] theorem roundHalfEven_intCast (n : ℤ) : roundHalfEven n = n := by simp [roundHalfEven]

theorem le_roundHalfEven {n : ℤ} {x : ℚ} (h : n ≤ x) : n ≤ roundHalfEven x :=
  (Int.le_floor.mpr h).trans (floor_le_roundHalfEven x)

/-! ## Rounding to doubles -/

theorem spacing_pos (x : ℚ) : 0 < spacing x := zpow_pos (by norm_num) _

/-- A multiple of the spacing stays as it is. -/
theorem toDouble_of_multiple {x : ℚ} {k : ℤ} (h : x = k * spacing x) : toDouble x = x := by
  unfold toDouble
  split
  · next hx => exact hx.symm
  · have hk : x / spacing x = k := (div_eq_iff (spacing_pos x).ne').mpr h
    rw [hk, roundHalfEven_intCast]
    exact h.symm

/-- Rounding does not pass over a multiple of the spacing. -/
theorem multiple_le_toDouble {x : ℚ} (hx : x ≠ 0) {k : ℤ} (h : k * spacing x ≤ x) : k * spacing x ≤ toDouble x := by
  have hk : k ≤ roundHalfEven (x / spacing x) := le_roundHalfEven ((le_div_iff₀ (spacing_pos x)).mpr h)
  rw [toDouble, if_neg hx]
  exact mul_le_mul_of_nonneg_right (by exact_mod_cast hk) (spacing_pos x).le

/-- Below 2 ^ 53 the spacing divides one. -/
theorem exists_spacing {x : ℚ} (hx : 0 < x) (h : x < 2 ^ 53) : ∃ k : ℕ, k * spacing x = 1 := by
  have hlog : Int.log 2 |x| ≤ 52 := by
    rw [abs_of_pos hx, ← Int.lt_add_one_iff]
    refine (Int.lt_zpow_iff_log_lt one_lt_two hx).mp ?_
    exact_mod_cast h
  refine ⟨2 ^ (52 - Int.log 2 |x|).toNat, ?_⟩
  have hpow : ((2 ^ (52 - Int.log 2 |x|).toNat : ℕ) : ℚ) = (2 : ℚ) ^ (52 - Int.log 2 |x|) := by
    rw [Nat.cast_pow, ← zpow_natCast, Int.toNat_of_nonneg (by omega)]
    rfl
  rw [hpow, spacing, ← zpow_add₀ (by norm_num : (2 : ℚ) ≠ 0)]
  norm_num

/-- From 2 ^ 53 on, 2 ^ 52 spacings are at least 2 ^ 53 and at most the number. -/
theorem spacing_of_large {x : ℚ} (h : 2 ^ 53 ≤ x) : 2 ^ 53 ≤ 2 ^ 52 * spacing x ∧ 2 ^ 52 * spacing x ≤ x := by
  have hx : 0 < x := lt_of_lt_of_le (by norm_num) h
  have hpow : (2 : ℚ) ^ 52 * spacing x = (2 : ℚ) ^ Int.log 2 x := by
    rw [spacing, abs_of_pos hx, ← zpow_natCast (2 : ℚ) 52, ← zpow_add₀ (by norm_num : (2 : ℚ) ≠ 0)]
    congr 1
    norm_num
  rw [hpow]
  have hlog : (53 : ℤ) ≤ Int.log 2 x := (Int.zpow_le_iff_le_log one_lt_two hx).mp (by exact_mod_cast h)
  refine ⟨?_, ?_⟩
  · rw [← zpow_natCast (2 : ℚ) 53]
    exact zpow_le_zpow_right₀ (by norm_num) hlog
  · have hself := Int.zpow_log_le_self (b := 2) one_lt_two hx
    exact_mod_cast hself

/-- A double holds every whole number up to 2 ^ 53. -/
theorem toDouble_natCast {n : ℕ} (h : n ≤ 2 ^ 53) : toDouble n = n := by
  rcases Nat.eq_zero_or_pos n with rfl | hpos
  · simp [toDouble]
  · rcases h.lt_or_eq with hlt | rfl
    · obtain ⟨k, hk⟩ := exists_spacing (x := n) (by exact_mod_cast hpos) (by exact_mod_cast hlt)
      refine toDouble_of_multiple (k := n * k) ?_
      push_cast
      rw [mul_assoc, hk, mul_one]
    · have hlarge := spacing_of_large (x := ((2 ^ 53 : ℕ) : ℚ)) (by norm_num)
      refine toDouble_of_multiple (k := 2 ^ 52) ?_
      push_cast at hlarge ⊢
      exact le_antisymm hlarge.1 hlarge.2

/-- Rounding does not pass over a whole number up to 2 ^ 53. -/
theorem natCast_le_toDouble {n : ℕ} (hn : n ≤ 2 ^ 53) {x : ℚ} (h : n ≤ x) : (n : ℚ) ≤ toDouble x := by
  rcases (Nat.cast_nonneg n).trans h |>.eq_or_lt with hzero | hx
  · rw [← hzero] at h ⊢
    simpa [toDouble] using h
  · rcases lt_or_ge x (2 ^ 53) with hlt | hge
    · obtain ⟨k, hk⟩ := exists_spacing hx hlt
      have hmul : (((n * k : ℕ) : ℤ) : ℚ) * spacing x = n := by
        push_cast
        rw [mul_assoc, hk, mul_one]
      have hle := multiple_le_toDouble hx.ne' (hmul.trans_le h)
      rwa [hmul] at hle
    · obtain ⟨hlow, hhigh⟩ := spacing_of_large hge
      have hle := multiple_le_toDouble (k := 2 ^ 52) hx.ne' (by exact_mod_cast hhigh)
      refine le_trans ?_ (hlow.trans (by exact_mod_cast hle))
      exact_mod_cast hn

end Doubles
