import Mathlib.Algebra.Order.Field.Basic
import Mathlib.Data.Rat.Cast.Order
import Mathlib.Tactic.FieldSimp
import Mathlib.Tactic.Linarith
import Mathlib.Tactic.NormNum
import Mathlib.Tactic.Positivity
import Mathlib.Tactic.Ring
import ShaderReflection.Number.Binary64

/-! Rounding to the nearest binary64 number. The format is described by its places, which are pairs of
a significand and an exponent without a largest exponent; a number rounds to the nearest place, and
what lies beyond the largest finite number is infinite. -/
namespace ShaderReflection.Binary64

def value (m : Nat) (q : Int) : ℚ := m * 2 ^ q

/-- A significand of 53 bits and its exponent. Fewer bits come with the smallest exponent only. -/
structure IsPlace (m : Nat) (q : Int) : Prop where
  below : m < 2 * fullSignificand
  exponent : minExponent ≤ q
  full : fullSignificand ≤ m ∨ q = minExponent

/-- The place nearest to a magnitude; of two of them, the one with an even significand. -/
structure Nearest (r : ℚ) (m : Nat) (q : Int) : Prop where
  place : IsPlace m q
  least : ∀ k e, IsPlace k e → |value m q - r| ≤ |value k e - r|
  even : ∀ k e, IsPlace k e → |value k e - r| = |value m q - r| → value k e ≠ value m q →
    m % 2 = 0

def largest : ℚ := value (2 * fullSignificand - 1) maxExponent

/-- A sign and a magnitude round to a number of the format. -/
inductive RoundsTo (negative : Bool) (r : ℚ) : Binary64 → Prop
  | finite {m : Nat} {q : Int} (nearest : Nearest r m q) (fits : value m q ≤ largest) :
      RoundsTo negative r (.finite negative m q)
  | infinite {m : Nat} {q : Int} (nearest : Nearest r m q) (exceeds : largest < value m q) :
      RoundsTo negative r (.infinite negative)

theorem two_zpow_pos (q : Int) : (0 : ℚ) < 2 ^ q := zpow_pos (by norm_num) q

theorem two_zpow_add (p q : Int) : (2 : ℚ) ^ (p + q) = 2 ^ p * 2 ^ q :=
  zpow_add₀ (by norm_num) p q

theorem two_zpow_le {p q : Int} (h : p ≤ q) : (2 : ℚ) ^ p ≤ 2 ^ q :=
  zpow_le_zpow_right₀ (by norm_num) h

theorem fullSignificand_eq : (fullSignificand : ℚ) = 2 ^ (52 : Int) := by
  unfold fullSignificand
  norm_num

section Places

variable {m k : Nat} {q e : Int}

theorem value_nonneg (m : Nat) (q : Int) : 0 ≤ value m q :=
  mul_nonneg (Nat.cast_nonneg m) (two_zpow_pos q).le

theorem value_succ (m : Nat) (q : Int) : value m (q + 1) = value (2 * m) q := by
  unfold value
  rw [two_zpow_add, zpow_one]
  push_cast
  ring

/-- A magnitude is a multiple of all smaller powers. -/
private theorem value_eq_of_le (m : Nat) (h : q ≤ e) :
    value m e = value (m * 2 ^ (e - q).toNat) q := by
  have hsum : e = q + ((e - q).toNat : Int) := by omega
  unfold value
  conv_lhs => rw [hsum, two_zpow_add, zpow_natCast]
  push_cast
  ring

theorem value_lt_value (h : m < k) (q : Int) : value m q < value k q :=
  mul_lt_mul_of_pos_right (Nat.cast_lt.mpr h) (two_zpow_pos q)

theorem value_le_value (h : m ≤ k) (q : Int) : value m q ≤ value k q :=
  mul_le_mul_of_nonneg_right (Nat.cast_le.mpr h) (two_zpow_pos q).le

/-- All places of an exponent lie below the full significand of the next one. -/
theorem IsPlace.value_lt_full (h : IsPlace m q) (hqe : q < e) :
    value m q < value fullSignificand e := by
  have hpow : (2 : ℚ) ^ (q + 1) ≤ 2 ^ e := two_zpow_le hqe
  calc value m q < value (2 * fullSignificand) q := value_lt_value h.below q
    _ = value fullSignificand (q + 1) := (value_succ _ q).symm
    _ ≤ value fullSignificand e := mul_le_mul_of_nonneg_left hpow (Nat.cast_nonneg _)

theorem IsPlace.value_lt_of_exponent_lt (h : IsPlace m q) (h' : IsPlace k e) (hqe : q < e) :
    value m q < value k e := by
  have hfull : fullSignificand ≤ k := by
    have hmin := h.exponent
    rcases h'.full with hfull | he
    · exact hfull
    · omega
  exact (h.value_lt_full hqe).trans_le (value_le_value hfull e)

/-- A place is known by its magnitude. -/
theorem IsPlace.eq_of_value_eq (h : IsPlace m q) (h' : IsPlace k e) (hv : value m q = value k e) :
    m = k ∧ q = e := by
  rcases lt_trichotomy q e with hlt | rfl | hgt
  · exact absurd hv (h.value_lt_of_exponent_lt h' hlt).ne
  · refine ⟨?_, rfl⟩
    have hcast : (m : ℚ) = k := mul_right_cancel₀ (two_zpow_pos q).ne' hv
    exact_mod_cast hcast
  · exact absurd hv (h'.value_lt_of_exponent_lt h hgt).ne'

theorem isPlace_full (hq : minExponent ≤ q) : IsPlace fullSignificand q where
  below := by decide
  exponent := hq
  full := .inl (Nat.le_refl _)

/-- A place does not exceed the largest number iff its exponent does not. -/
theorem IsPlace.value_le_largest_iff (h : IsPlace m q) :
    value m q ≤ largest ↔ q ≤ maxExponent := by
  have hplace : IsPlace (2 * fullSignificand - 1) maxExponent :=
    ⟨by decide, by decide, .inl (by decide)⟩
  constructor
  · intro hle
    by_contra hq
    have hlt := hplace.value_lt_of_exponent_lt h (not_le.mp hq)
    exact absurd hle (not_le.mpr hlt)
  · intro hq
    rcases hq.lt_or_eq with hlt | rfl
    · exact (h.value_lt_of_exponent_lt hplace hlt).le
    · have hbelow := h.below
      exact value_le_value (by omega) maxExponent

end Places

section Unique

variable {r : ℚ} {m k : Nat} {q e : Int}

/-- Next to a place with an even significand comes the one with the next significand. -/
theorem IsPlace.succ (h : IsPlace m q) (heven : m % 2 = 0) : IsPlace (m + 1) q where
  below := by
    have hm := h.below
    have hfull : fullSignificand % 2 = 0 := by decide
    omega
  exponent := h.exponent
  full := h.full.imp_left Nat.le_succ_of_le

/-- Two places with even significands have another one between them. -/
theorem IsPlace.exists_between (h : IsPlace m q) (h' : IsPlace k e) (heven : m % 2 = 0)
    (heven' : k % 2 = 0) (hlt : value m q < value k e) :
    value (m + 1) q < value k e := by
  have hsucc := h.succ heven
  rcases lt_trichotomy q e with hqe | rfl | hqe
  · exact hsucc.value_lt_of_exponent_lt h' hqe
  · have hmk : m < k := by
      by_contra hle
      exact absurd hlt (not_lt.mpr (value_le_value (not_lt.mp hle) q))
    exact value_lt_value (by omega) q
  · exact absurd hlt (not_lt.mpr (h'.value_lt_of_exponent_lt h hqe).le)

/-- Of two places at the same distance, not both can be even and nearest. -/
theorem Nearest.value_not_lt (h : Nearest r m q) (h' : Nearest r k e) :
    ¬value m q < value k e := by
  intro hlt
  have hdist : |value m q - r| = |value k e - r| :=
    le_antisymm (h.least k e h'.place) (h'.least m q h.place)
  have heven : m % 2 = 0 := h.even k e h'.place hdist.symm hlt.ne'
  have heven' : k % 2 = 0 := h'.even m q h.place hdist hlt.ne
  have hbetween := h.place.exists_between h'.place heven heven' hlt
  have habove : value m q < value (m + 1) q := value_lt_value (Nat.lt_succ_self m) q
  have hleast := h.least (m + 1) q (h.place.succ heven)
  -- The number lies in the middle of the two, so the place between them is nearer.
  have hmiddle : value k e - r = r - value m q := by
    rcases abs_eq_abs.mp hdist with hsame | hopposite
    · linarith
    · linarith
  rw [abs_of_nonpos (by linarith)] at hleast
  rcases abs_cases (value (m + 1) q - r) with ⟨habs, -⟩ | ⟨habs, -⟩
  · linarith
  · linarith

theorem Nearest.unique (h : Nearest r m q) (h' : Nearest r k e) : m = k ∧ q = e :=
  h.place.eq_of_value_eq h'.place
    (le_antisymm (not_lt.mp (h'.value_not_lt h)) (not_lt.mp (h.value_not_lt h')))

/-- A magnitude rounds to one number only. -/
theorem RoundsTo.unique {negative : Bool} {x y : Binary64} (h : RoundsTo negative r x)
    (h' : RoundsTo negative r y) : x = y := by
  cases h with
  | finite hx hfits =>
    cases h' with
    | finite hy _ =>
      obtain ⟨rfl, rfl⟩ := hx.unique hy
      rfl
    | infinite hy hexceeds =>
      obtain ⟨rfl, rfl⟩ := hx.unique hy
      exact absurd hfits (not_le.mpr hexceeds)
  | infinite hx hexceeds =>
    cases h' with
    | finite hy hfits =>
      obtain ⟨rfl, rfl⟩ := hx.unique hy
      exact absurd hfits (not_le.mpr hexceeds)
    | infinite => rfl

end Unique

section Integers

variable {x : ℚ} {m : Nat}

/-- The integer nearest to a number, the even one of two. -/
structure RoundsEven (x : ℚ) (m : Nat) : Prop where
  near : |(m : ℚ) - x| ≤ 1 / 2
  even : |(m : ℚ) - x| = 1 / 2 → m % 2 = 0

/-- A quotient is a whole number and a remainder. -/
private theorem div_eq_add_mod (num : Nat) {den : Nat} (hden : 0 < den) :
    (num : ℚ) / den = (num / den : Nat) + (num % den : Nat) / (den : ℚ) := by
  have hpos : (den : ℚ) ≠ 0 := Nat.cast_ne_zero.mpr hden.ne'
  have hsum : (num : ℚ) = den * (num / den : Nat) + (num % den : Nat) := by
    exact_mod_cast (Nat.div_add_mod num den).symm
  rw [div_eq_iff hpos, add_mul, div_mul_cancel₀ _ hpos, mul_comm, ← hsum]

theorem divEven_roundsEven (num : Nat) {den : Nat} (hden : 0 < den) :
    RoundsEven (num / den) (divEven num den) := by
  have hpos : (0 : ℚ) < den := Nat.cast_pos.mpr hden
  have hlt := Nat.mod_lt num hden
  rw [div_eq_add_mod num hden]
  unfold divEven
  generalize num / den = k
  generalize num % den = r at hlt
  have hnonneg : (0 : ℚ) ≤ r / den := div_nonneg (Nat.cast_nonneg r) hpos.le
  have hone : (r : ℚ) / den < 1 := by
    rw [div_lt_one hpos]
    exact_mod_cast hlt
  dsimp only
  split_ifs with hlow hhigh
  · have hhalf : (r : ℚ) / den < 1 / 2 := by
      rw [div_lt_div_iff₀ hpos (by norm_num)]
      have hcast : (2 : ℚ) * r < den := by exact_mod_cast hlow
      linarith
    have habs : |(k : ℚ) - (k + r / den)| = r / den := by
      rw [sub_add_cancel_left, abs_neg, abs_of_nonneg hnonneg]
    rw [← habs] at hhalf
    exact ⟨hhalf.le, fun htie => absurd htie hhalf.ne⟩
  · have hhalf : (1 : ℚ) / 2 < r / den := by
      rw [div_lt_div_iff₀ (by norm_num) hpos]
      have hcast : (den : ℚ) < 2 * r := by exact_mod_cast hhigh
      linarith
    have habs : |((k + 1 : Nat) : ℚ) - (k + r / den)| = 1 - r / den := by
      rw [abs_of_nonneg] <;> push_cast <;> linarith
    have hbelow : |((k + 1 : Nat) : ℚ) - (k + r / den)| < 1 / 2 := by linarith
    exact ⟨hbelow.le, fun htie => absurd htie hbelow.ne⟩
  · have hhalf : (r : ℚ) / den = 1 / 2 := by
      rw [div_eq_div_iff hpos.ne' (by norm_num)]
      have hcast : ((2 * r : Nat) : ℚ) = (den : Nat) := by
        congr 1
        omega
      push_cast at hcast
      linarith
    refine ⟨?_, fun _ => by omega⟩
    rw [hhalf]
    rcases Nat.mod_two_eq_zero_or_one k with hk | hk <;> rw [hk] <;> push_cast <;> rw [abs_le] <;>
      constructor <;> linarith

/-- All other integers are at least half a unit away. -/
theorem RoundsEven.half_le (h : RoundsEven x m) {k : Nat} (hkm : k ≠ m) :
    1 / 2 ≤ |(k : ℚ) - x| := by
  have hone : (1 : ℚ) ≤ |(m : ℚ) - k| := by
    have hint : (1 : Int) ≤ |(m : Int) - k| := Int.one_le_abs (by omega)
    exact_mod_cast hint
  have hnear := h.near
  have htriangle : |(m : ℚ) - k| ≤ |(m : ℚ) - x| + |x - k| := abs_sub_le _ _ _
  rw [abs_sub_comm x] at htriangle
  linarith

/-- No integer is nearer than the one that is rounded to. -/
private theorem RoundsEven.le (h : RoundsEven x m) (k : Nat) : |(m : ℚ) - x| ≤ |(k : ℚ) - x| := by
  by_cases hkm : k = m
  · rw [hkm]
  · exact h.near.trans (h.half_le hkm)

/-- Where another integer is as near, the one that is rounded to is even. -/
private theorem RoundsEven.even_of_tie (h : RoundsEven x m) {k : Nat} (hkm : k ≠ m)
    (htie : |(k : ℚ) - x| = |(m : ℚ) - x|) : m % 2 = 0 := by
  have hhalf := h.half_le hkm
  rw [htie] at hhalf
  exact h.even (le_antisymm h.near hhalf)

end Integers

section Scaling

variable {x : ℚ} {m k : Nat} {q e : Int}

private theorem abs_value_sub (m : Nat) (q : Int) (x : ℚ) :
    |value m q - x * 2 ^ q| = |(m : ℚ) - x| * 2 ^ q := by
  unfold value
  rw [← sub_mul, abs_mul, abs_of_pos (two_zpow_pos q)]

/-- What rounds to an integer at an exponent rounds to the same magnitude in the format, unless it has
too few bits for the exponent. The magnitude may be written as another place. -/
theorem RoundsEven.nearest (h : RoundsEven x m) (hfull : q = minExponent ∨ fullSignificand ≤ x)
    {m' : Nat} {q' : Int} (hplace : IsPlace m' q') (hvalue : value m' q' = value m q)
    (heven : m % 2 = 0 → m' % 2 = 0) : Nearest (x * 2 ^ q) m' q' := by
  have hpos := two_zpow_pos q
  -- A place with a smaller exponent lies below the number and below a full significand.
  have hsmall : ∀ k e, IsPlace k e → e < q →
      |value m q - x * 2 ^ q| < |value k e - x * 2 ^ q| := by
    intro k e hk hlt
    have hx : (fullSignificand : ℚ) ≤ x := by
      have hmin := hk.exponent
      rcases hfull with hq | hx
      · omega
      · exact hx
    have hbelow : value k e < value fullSignificand q := hk.value_lt_full hlt
    have habove : value fullSignificand q ≤ x * 2 ^ q := mul_le_mul_of_nonneg_right hx hpos.le
    have hleast := mul_le_mul_of_nonneg_right (h.le fullSignificand) hpos.le
    rw [← abs_value_sub, ← abs_value_sub] at hleast
    rw [abs_of_nonpos (sub_nonpos.mpr habove)] at hleast
    rw [abs_of_nonpos (by linarith : value k e - x * 2 ^ q ≤ 0)]
    linarith
  have hlarge : ∀ k e, q ≤ e → |value k e - x * 2 ^ q| =
      |((k * 2 ^ (e - q).toNat : Nat) : ℚ) - x| * 2 ^ q := by
    intro k e hle
    rw [value_eq_of_le k hle, abs_value_sub]
  constructor
  · exact hplace
  · intro k e hk
    rw [hvalue]
    rcases lt_or_ge e q with hlt | hle
    · exact (hsmall k e hk hlt).le
    · rw [hlarge k e hle, abs_value_sub]
      exact mul_le_mul_of_nonneg_right (h.le _) hpos.le
  · intro k e hk htie hne
    rw [hvalue] at htie hne
    rcases lt_or_ge e q with hlt | hle
    · exact absurd htie.symm (hsmall k e hk hlt).ne
    · rw [hlarge k e hle, abs_value_sub] at htie
      rw [value_eq_of_le k hle] at hne
      refine heven (h.even_of_tie (fun hsame => hne ?_) (mul_right_cancel₀ hpos.ne' htie))
      rw [hsame]

theorem scaled_pos (num : Nat) {den : Nat} (hden : 0 < den) (s : Int) :
    0 < (scaled num den s).2 := by
  cases s with
  | ofNat k => exact hden
  | negSucc k => exact Nat.mul_pos hden (Nat.pow_pos (by decide))

theorem scaled_div (num den : Nat) (s : Int) :
    ((scaled num den s).1 : ℚ) / (scaled num den s).2 = num / den * 2 ^ s := by
  cases s with
  | ofNat k =>
    have hpow : (2 : ℚ) ^ (Int.ofNat k) = 2 ^ k := zpow_natCast _ _
    have hscaled : scaled num den (.ofNat k) = (num * 2 ^ k, den) := rfl
    rw [hpow, hscaled]
    push_cast
    ring
  | negSucc k =>
    have hscaled : scaled num den (.negSucc k) = (num, den * 2 ^ (k + 1)) := rfl
    rw [zpow_negSucc, hscaled]
    push_cast
    rw [div_mul_eq_div_div, div_eq_mul_inv]

theorem natLog2_spec {n : Nat} (hn : 0 < n) :
    (2 : ℚ) ^ (n.log2 : Int) ≤ n ∧ (n : ℚ) < 2 ^ ((n.log2 : Int) + 1) := by
  constructor
  · rw [zpow_natCast]
    exact_mod_cast Nat.log2_self_le hn.ne'
  · have hsucc : ((n.log2 : Int) + 1) = ((n.log2 + 1 : Nat) : Int) := rfl
    rw [hsucc, zpow_natCast]
    exact_mod_cast Nat.lt_log2_self

theorem floorLog2_spec {num den : Nat} (hnum : 0 < num) (hden : 0 < den) :
    (2 : ℚ) ^ floorLog2 num den ≤ num / den ∧
      (num : ℚ) / den < 2 ^ (floorLog2 num den + 1) := by
  have hpos : (0 : ℚ) < den := Nat.cast_pos.mpr hden
  obtain ⟨hnumlow, hnumhigh⟩ := natLog2_spec hnum
  obtain ⟨hdenlow, hdenhigh⟩ := natLog2_spec hden
  have hlow : (2 : ℚ) ^ ((num.log2 : Int) - den.log2 - 1) < num / den := by
    rw [lt_div_iff₀ hpos]
    calc (2 : ℚ) ^ ((num.log2 : Int) - den.log2 - 1) * den
        < 2 ^ ((num.log2 : Int) - den.log2 - 1) * 2 ^ ((den.log2 : Int) + 1) :=
          mul_lt_mul_of_pos_left hdenhigh (two_zpow_pos _)
      _ = 2 ^ (num.log2 : Int) := by
          rw [← two_zpow_add]
          congr 1
          omega
      _ ≤ num := hnumlow
  have hhigh : (num : ℚ) / den < 2 ^ ((num.log2 : Int) - den.log2 + 1) := by
    rw [div_lt_iff₀ hpos]
    calc (num : ℚ) < 2 ^ ((num.log2 : Int) + 1) := hnumhigh
      _ = 2 ^ ((num.log2 : Int) - den.log2 + 1) * 2 ^ (den.log2 : Int) := by
          rw [← two_zpow_add]
          congr 1
          omega
      _ ≤ 2 ^ ((num.log2 : Int) - den.log2 + 1) * den :=
          mul_le_mul_of_nonneg_left hdenlow (two_zpow_pos _).le
  unfold floorLog2
  generalize (num.log2 : Int) - den.log2 = e at hlow hhigh
  have hscaled := scaled_div num den (-e)
  have hd : (0 : ℚ) < (scaled num den (-e)).2 := Nat.cast_pos.mpr (scaled_pos num hden (-e))
  -- The quotient is compared with the power through the scaled one.
  have hcompare : (scaled num den (-e)).1 < (scaled num den (-e)).2 ↔
      (num : ℚ) / den < 2 ^ e := by
    rw [← div_lt_one (two_zpow_pos e), div_eq_mul_inv _ ((2 : ℚ) ^ e), ← zpow_neg, ← hscaled,
      div_lt_one hd, Nat.cast_lt]
  dsimp only
  split_ifs with hlt
  · rw [sub_add_cancel]
    exact ⟨hlow.le, hcompare.mp hlt⟩
  · exact ⟨not_lt.mp (mt hcompare.mpr hlt), hhigh⟩

end Scaling

section Quotients

/-- A significand that was rounded up to the next power is written as a full one. -/
def carry (m : Nat) (q : Int) : Nat × Int :=
  if m = 2 * fullSignificand then (fullSignificand, q + 1) else (m, q)

theorem RoundsEven.nearest_carry {x : ℚ} {m : Nat} {q : Int} (h : RoundsEven x m)
    (hq : minExponent ≤ q) (hbelow : x < 2 * fullSignificand)
    (hfull : q = minExponent ∨ fullSignificand ≤ x) :
    Nearest (x * 2 ^ q) (carry m q).1 (carry m q).2 := by
  have hnear := abs_le.mp h.near
  have hm : m ≤ 2 * fullSignificand := by
    have hlt : (m : ℚ) < ((2 * fullSignificand + 1 : Nat) : ℚ) := by
      push_cast
      linarith
    exact Nat.lt_succ_iff.mp (Nat.cast_lt.mp hlt)
  unfold carry
  split_ifs with hcarry
  · apply h.nearest hfull (isPlace_full (by omega))
    · rw [hcarry]
      exact value_succ _ q
    · intro _
      decide
  · apply h.nearest hfull _ rfl id
    refine ⟨by omega, hq, ?_⟩
    rcases hfull with hmin | hx
    · exact .inr hmin
    · left
      have hlt : ((fullSignificand : Nat) : ℚ) < ((m + 1 : Nat) : ℚ) := by
        push_cast
        linarith
      exact Nat.lt_succ_iff.mp (Nat.cast_lt.mp hlt)

theorem nearest_zero : Nearest 0 0 minExponent := by
  have hzero : value 0 minExponent = 0 := by simp [value]
  refine ⟨⟨by decide, Int.le_refl _, .inr rfl⟩, ?_, fun _ _ _ _ _ => rfl⟩
  intro k e _
  rw [hzero, sub_zero, abs_zero]
  exact abs_nonneg _

/-- A quotient at its exponent has 53 bits before the point, unless the exponent is the smallest. -/
theorem quantumExponent_spec {num den : Nat} (hnum : 0 < num) (hden : 0 < den) :
    minExponent ≤ quantumExponent num den ∧
      (num : ℚ) / den * 2 ^ (-quantumExponent num den) < 2 * fullSignificand ∧
      (quantumExponent num den = minExponent ∨
        (fullSignificand : ℚ) ≤ num / den * 2 ^ (-quantumExponent num den)) := by
  obtain ⟨hlow, hhigh⟩ := floorLog2_spec hnum hden
  unfold quantumExponent
  generalize floorLog2 num den = f at hlow hhigh
  refine ⟨le_max_right _ _, ?_, ?_⟩
  · rw [zpow_neg, ← div_eq_mul_inv, div_lt_iff₀ (two_zpow_pos _),
      fullSignificand_eq]
    calc (num : ℚ) / den < 2 ^ (f + 1) := hhigh
      _ ≤ 2 ^ (1 + (52 + max (f - 52) minExponent)) := two_zpow_le (by omega)
      _ = 2 * 2 ^ (52 : Int) * 2 ^ max (f - 52) minExponent := by
          rw [two_zpow_add, two_zpow_add, zpow_one, mul_assoc]
  · rcases max_choice (f - 52) minExponent with hmax | hmax
    · right
      rw [hmax, zpow_neg, ← div_eq_mul_inv, le_div_iff₀ (two_zpow_pos _), fullSignificand_eq,
        ← two_zpow_add]
      have hsum : (52 : Int) + (f - 52) = f := by omega
      rw [hsum]
      exact hlow
    · exact .inl hmax

/-- A magnitude with a nearest place rounds to it, or is infinite. -/
theorem Nearest.roundsTo {r : ℚ} {m : Nat} {q : Int} (h : Nearest r m q) (negative : Bool) :
    RoundsTo negative r (if maxExponent < q then .infinite negative else .finite negative m q) := by
  have hfits := h.place.value_le_largest_iff
  split_ifs with hq
  · exact .infinite h (not_le.mp (mt hfits.mp (by omega)))
  · exact .finite h (hfits.mpr (by omega))

/-- A quotient is rounded to the nearest number, ties to even. -/
theorem ofQuotient_roundsTo (negative : Bool) (num : Nat) {den : Nat} (hden : 0 < den) :
    RoundsTo negative (num / den) (ofQuotient negative num den) := by
  unfold ofQuotient
  split_ifs with hnum
  · rw [hnum, Nat.cast_zero, zero_div]
    exact nearest_zero.roundsTo negative
  · obtain ⟨hmin, hbelow, hfull⟩ := quantumExponent_spec (Nat.pos_of_ne_zero hnum) hden
    have hscaled := scaled_div num den (-quantumExponent num den)
    have heven := divEven_roundsEven (scaled num den (-quantumExponent num den)).1
      (scaled_pos num hden (-quantumExponent num den))
    rw [hscaled] at heven
    have hnearest := heven.nearest_carry hmin hbelow hfull
    rw [mul_assoc, ← two_zpow_add, neg_add_cancel, zpow_zero, mul_one] at hnearest
    exact hnearest.roundsTo negative

end Quotients
end ShaderReflection.Binary64
