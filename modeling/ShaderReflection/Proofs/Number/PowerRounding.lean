import ShaderReflection.Proofs.Number.Rounding

/-! Rounding of numbers with exponents. A magnitude so large or so small that its sign decides what it
rounds to is never computed; all others are quotients of natural numbers. -/
namespace ShaderReflection.Binary64

section Extremes

variable {negative : Bool} {r : ℚ} {x : Binary64}

/-- A magnitude as large as the first power of two that is not finite is infinite. -/
theorem RoundsTo.eq_infinite (h : RoundsTo negative r x) (hr : (2 : ℚ) ^ (1024 : Int) ≤ r) :
    x = .infinite negative := by
  cases h with
  | infinite => rfl
  | @finite m q nearest fits =>
    have hplace : IsPlace fullSignificand 972 := isPlace_full (by decide)
    have hvalue : value fullSignificand 972 = 2 ^ (1024 : Int) := by
      unfold value
      rw [fullSignificand_eq, ← two_zpow_add]
      rfl
    have hbeyond : largest < value fullSignificand 972 := by
      apply not_le.mp
      rw [hplace.value_le_largest_iff]
      decide
    have hleast := nearest.least fullSignificand 972 hplace
    rw [hvalue] at hleast hbeyond
    rw [abs_of_nonpos (by linarith), abs_of_nonpos (by linarith)] at hleast
    linarith

/-- A magnitude below half of the smallest number is zero. -/
theorem roundsTo_zero (negative : Bool) (hnonneg : 0 ≤ r) (hr : r < 2 ^ (-1075 : Int)) :
    RoundsTo negative r (.finite negative 0 minExponent) := by
  have hzero : value 0 minExponent = 0 := by simp [value]
  have hhalf : (2 : ℚ) ^ minExponent = 2 * 2 ^ (-1075 : Int) := by
    have hsum : minExponent = 1 + -1075 := rfl
    rw [hsum, two_zpow_add, zpow_one]
  have hfar : ∀ k e, IsPlace k e → value k e ≠ 0 → |value 0 minExponent - r| < |value k e - r| := by
    intro k e hk hne
    have hone : 1 ≤ k := by
      by_contra hlt
      obtain rfl : k = 0 := by omega
      exact hne (by simp [value])
    have hpow : (2 : ℚ) ^ minExponent ≤ value k e := by
      calc (2 : ℚ) ^ minExponent ≤ 2 ^ e := two_zpow_le hk.exponent
        _ = value 1 e := by simp [value]
        _ ≤ value k e := value_le_value hone e
    rw [hzero, zero_sub, abs_neg, abs_of_nonneg hnonneg, abs_of_nonneg (by linarith)]
    linarith
  have hplace : IsPlace 0 minExponent := ⟨by decide, Int.le_refl _, .inr rfl⟩
  refine .finite ⟨hplace, ?_, fun _ _ _ _ _ => rfl⟩ (hplace.value_le_largest_iff.mpr (by decide))
  intro k e hk
  by_cases hne : value k e = 0
  · rw [hne, hzero]
  · exact (hfar k e hk hne).le

end Extremes

theorem roundsTo_of_zero (negative : Bool) : RoundsTo negative 0 (.finite negative 0 minExponent) :=
  nearest_zero.roundsTo negative

/-- A natural number with a binary exponent is rounded to the nearest number. -/
theorem ofBinary_roundsTo (negative : Bool) (m : Nat) (e : Int) :
    RoundsTo negative (m * 2 ^ e) (ofBinary negative m e) := by
  unfold ofBinary
  split_ifs with hm hlarge hsmall
  · rw [hm, Nat.cast_zero, zero_mul]
    exact roundsTo_of_zero negative
  all_goals
    obtain ⟨hlow, hhigh⟩ := natLog2_spec (Nat.pos_of_ne_zero hm)
    have hquotient := ofQuotient_roundsTo negative (scaled m 1 e).1
      (scaled_pos m Nat.one_pos e)
    rw [scaled_div, Nat.cast_one, div_one] at hquotient
  · have hr : (2 : ℚ) ^ (1024 : Int) ≤ m * 2 ^ e := by
      calc (2 : ℚ) ^ (1024 : Int) ≤ 2 ^ ((m.log2 : Int) + e) := two_zpow_le (by omega)
        _ = 2 ^ (m.log2 : Int) * 2 ^ e := two_zpow_add _ _
        _ ≤ m * 2 ^ e := mul_le_mul_of_nonneg_right hlow (two_zpow_pos e).le
    rw [hquotient.eq_infinite hr] at hquotient
    exact hquotient
  · apply roundsTo_zero negative (value_nonneg m e)
    calc (m : ℚ) * 2 ^ e < 2 ^ ((m.log2 : Int) + 1) * 2 ^ e :=
          mul_lt_mul_of_pos_right hhigh (two_zpow_pos e)
      _ = 2 ^ ((m.log2 : Int) + 1 + e) := (two_zpow_add _ _).symm
      _ ≤ 2 ^ (-1075 : Int) := two_zpow_le (by omega)
  · exact hquotient

private theorem ten_zpow_pos (e : Int) : (0 : ℚ) < 10 ^ e := zpow_pos (by norm_num) e

private theorem ten_zpow_add (e f : Int) : (10 : ℚ) ^ (e + f) = 10 ^ e * 10 ^ f :=
  zpow_add₀ (by norm_num) e f

private theorem ten_zpow_le {e f : Int} (h : e ≤ f) : (10 : ℚ) ^ e ≤ 10 ^ f :=
  zpow_le_zpow_right₀ (by norm_num) h

/-- Ten digits hold more than 33 bits. -/
private theorem two_zpow_le_ten_zpow (k : Nat) :
    (2 : ℚ) ^ (33 * k : Int) ≤ 10 ^ (10 * k : Int) := by
  rw [zpow_mul, zpow_mul, zpow_natCast, zpow_natCast]
  exact pow_le_pow_left₀ (by norm_num) (by norm_num) k

theorem ofQuotient_times_roundsTo (negative : Bool) (m k : Nat) :
    RoundsTo negative (m * 10 ^ Int.ofNat k) (ofQuotient negative (m * Nat.pow 10 k) 1) := by
  have hround := ofQuotient_roundsTo negative (m * 10 ^ k) Nat.one_pos
  have hpow : (10 : ℚ) ^ (Int.ofNat k) = 10 ^ k := zpow_natCast _ _
  rw [hpow]
  push_cast at hround
  rwa [div_one] at hround

theorem ofQuotient_over_roundsTo (negative : Bool) (m k : Nat) :
    RoundsTo negative (m * 10 ^ Int.negSucc k) (ofQuotient negative m (Nat.pow 10 (k + 1))) := by
  have hround := ofQuotient_roundsTo negative m (Nat.pow_pos (n := k + 1) (by decide : 0 < 10))
  rw [zpow_negSucc, ← div_eq_mul_inv]
  push_cast at hround
  exact hround

/-- A natural number with a decimal exponent is rounded to the nearest number, if the count of its
digits is right. -/
theorem ofDecimal_roundsTo (negative : Bool) {m digits : Nat} (e : Int)
    (hlow : m ≠ 0 → 10 ^ digits ≤ 10 * m) (hhigh : m < 10 ^ digits) :
    RoundsTo negative (m * 10 ^ e) (ofDecimal negative m digits e) := by
  obtain ⟨x, hround⟩ : ∃ x, RoundsTo negative (m * 10 ^ e) x := by
    cases e with
    | ofNat k => exact ⟨_, ofQuotient_times_roundsTo negative m k⟩
    | negSucc k => exact ⟨_, ofQuotient_over_roundsTo negative m k⟩
  have hpos := ten_zpow_pos e
  unfold ofDecimal
  split_ifs with hm hlarge hsmall
  · rw [hm, Nat.cast_zero, zero_mul]
    exact roundsTo_of_zero negative
  · have hcast : (10 : ℚ) ^ (digits : Int) ≤ 10 * m := by
      rw [zpow_natCast]
      exact_mod_cast hlow hm
    have hten : (10 : ℚ) * 10 ^ (320 : Int) ≤ 10 * (m * 10 ^ e) := by
      calc (10 : ℚ) * 10 ^ (320 : Int) = 10 ^ (1 + 320 : Int) := by rw [ten_zpow_add, zpow_one]
        _ ≤ 10 ^ ((digits : Int) + e) := ten_zpow_le (by omega)
        _ = 10 ^ (digits : Int) * 10 ^ e := ten_zpow_add _ _
        _ ≤ 10 * m * 10 ^ e := mul_le_mul_of_nonneg_right hcast hpos.le
        _ = 10 * (m * 10 ^ e) := mul_assoc _ _ _
    have hr : (2 : ℚ) ^ (1024 : Int) ≤ m * 10 ^ e := by
      calc (2 : ℚ) ^ (1024 : Int) ≤ 2 ^ (33 * (32 : Nat) : Int) := two_zpow_le (by decide)
        _ ≤ 10 ^ (10 * (32 : Nat) : Int) := two_zpow_le_ten_zpow 32
        _ ≤ m * 10 ^ e := le_of_mul_le_mul_left hten (by norm_num)
    rw [hround.eq_infinite hr] at hround
    exact hround
  · apply roundsTo_zero negative (mul_nonneg (Nat.cast_nonneg m) hpos.le)
    have hcast : (m : ℚ) < 10 ^ (digits : Int) := by
      rw [zpow_natCast]
      exact_mod_cast hhigh
    calc (m : ℚ) * 10 ^ e < 10 ^ (digits : Int) * 10 ^ e := mul_lt_mul_of_pos_right hcast hpos
      _ = 10 ^ ((digits : Int) + e) := (ten_zpow_add _ _).symm
      _ ≤ 10 ^ (-(10 * (33 : Nat)) : Int) := ten_zpow_le (by omega)
      _ ≤ 2 ^ (-(33 * (33 : Nat)) : Int) := by
          rw [zpow_neg, zpow_neg]
          exact inv_anti₀ (two_zpow_pos _) (two_zpow_le_ten_zpow 33)
      _ ≤ 2 ^ (-1075 : Int) := two_zpow_le (by decide)
  · cases e with
    | ofNat k => exact ofQuotient_times_roundsTo negative m k
    | negSucc k => exact ofQuotient_over_roundsTo negative m k

end ShaderReflection.Binary64
