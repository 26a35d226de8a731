import Mathlib.Algebra.Order.Field.Power
import Mathlib.Data.Int.Log
import Mathlib.Data.Rat.Floor
import Mathlib.Tactic.Linarith

/-!
# Rounding to doubles

A finite double has 53 significant bits: below `2 ^ (k + 1)` and from `2 ^ k` on the doubles are
the multiples of `2 ^ (k - 52)`.  `roundNearest` takes a number to the nearest double, and to the
one with an even last bit when two are as near.  No bound is put on the exponent from above.

Programs that cut a product of doubles to an integer expect the integer part of the exact
product.  `floor_roundNearest_iff` says when this is what they get.
-/

namespace Binary64

/-- The nearest integer, of two the even one. -/
def nearest (x : ℚ) : ℤ :=
  if Int.fract x < 1 / 2 ∨ (Int.fract x = 1 / 2 ∧ Even ⌊x⌋) then ⌊x⌋ else ⌊x⌋ + 1

/-- The distance between the doubles around `y`; the smallest ones are equally spaced. -/
def spacing (y : ℚ) : ℚ := 2 ^ (max (Int.log 2 y) (-1022) - 52)

def roundNearest (y : ℚ) : ℚ := nearest (y / spacing y) * spacing y

variable {x y : ℚ} {n : ℤ}

/-! ### The nearest integer -/

theorem floor_le_nearest (x : ℚ) : ⌊x⌋ ≤ nearest x := by
  unfold nearest
  split <;> omega

theorem nearest_le_floor_add_one (x : ℚ) : nearest x ≤ ⌊x⌋ + 1 := by
  unfold nearest
  split <;> omega

/-- What lies below the middle of two integers goes down, and the middle itself if the upper
    one is odd. -/
theorem nearest_lt_iff : nearest x < n ↔ x < n - 1 / 2 ∨ (x = n - 1 / 2 ∧ ¬Even n) := by
  have hsum := Int.floor_add_fract x
  have hfract := Int.fract_nonneg x
  have hone := Int.fract_lt_one x
  rcases lt_trichotomy (⌊x⌋ + 1) n with hlt | heq | hgt
  · have hle : ⌊x⌋ + 2 ≤ n := by omega
    have hcast : (⌊x⌋ : ℚ) + 2 ≤ n := by exact_mod_cast hle
    refine iff_of_true ((nearest_le_floor_add_one x).trans_lt hlt) (.inl ?_)
    linarith
  · have hcast : (n : ℚ) = ⌊x⌋ + 1 := by exact_mod_cast heq.symm
    have heven : ¬Even n ↔ Even ⌊x⌋ := by
      rw [← heq, Int.even_add_one, not_not]
    have hdown : nearest x < n ↔ Int.fract x < 1 / 2 ∨ (Int.fract x = 1 / 2 ∧ Even ⌊x⌋) := by
      unfold nearest
      split
      · rename_i h
        exact iff_of_true (by omega) h
      · rename_i h
        exact iff_of_false (by omega) h
    rw [hdown, heven, hcast]
    refine or_congr ?_ (and_congr_left fun _ => ?_)
    · constructor <;> intro <;> linarith
    · constructor <;> intro <;> linarith
  · have hle : n ≤ ⌊x⌋ := by omega
    have hcast : (n : ℚ) ≤ ⌊x⌋ := by exact_mod_cast hle
    refine iff_of_false (not_lt.mpr (hle.trans (floor_le_nearest x))) ?_
    rintro (h | ⟨h, -⟩) <;> linarith

theorem le_nearest (h : (n : ℚ) ≤ x) : n ≤ nearest x :=
  (Int.le_floor.mpr h).trans (floor_le_nearest x)

theorem nearest_le (h : x ≤ n) : nearest x ≤ n := by
  refine Int.lt_add_one_iff.mp (nearest_lt_iff.mpr (.inl ?_))
  push_cast
  linarith

/-! ### The spacing of the doubles -/

/-- From 1 on, the number lies in `[2 ^ k, 2 ^ (k + 1))`. -/
theorem spacing_of_one_le (hy : 1 ≤ y) : ∃ k : ℕ, (2 : ℚ) ^ k ≤ y ∧ y < 2 ^ (k + 1) ∧
    spacing y * 2 ^ 52 = 2 ^ k := by
  have hpos : 0 < y := by linarith
  have hlog : 0 ≤ Int.log 2 y := by
    rw [Int.log_of_one_le_right _ hy]
    exact Int.natCast_nonneg _
  obtain ⟨k, hk⟩ := Int.eq_ofNat_of_zero_le hlog
  have hlower := Int.zpow_log_le_self (b := 2) one_lt_two hpos
  have hupper := Int.lt_zpow_succ_log_self (b := 2) one_lt_two y
  rw [hk] at hlower hupper
  refine ⟨k, by exact_mod_cast hlower, by exact_mod_cast hupper, ?_⟩
  unfold spacing
  rw [hk, max_eq_left (by omega), ← zpow_natCast, ← zpow_natCast, ← zpow_add₀ two_ne_zero]
  norm_num

/-! ### Rounding -/

/-- A power of two below a number is below the double next to it. -/
theorem pow_le_roundNearest (hy : 1 ≤ y) {j : ℕ} (h : 2 ^ j ≤ y) : 2 ^ j ≤ roundNearest y := by
  obtain ⟨k, hlower, hupper, hspacing⟩ := spacing_of_one_le hy
  have hpos : 0 < spacing y := by
    have hpow : (0 : ℚ) < 2 ^ k := by positivity
    linarith
  have hjk : (2 : ℚ) ^ j ≤ 2 ^ k := by
    refine pow_le_pow_right₀ one_le_two (Nat.lt_succ_iff.mp ?_)
    exact (pow_lt_pow_iff_right₀ one_lt_two).mp (h.trans_lt hupper)
  have hbits : ((2 ^ 52 : ℤ) : ℚ) ≤ y / spacing y := by
    rw [le_div_iff₀ hpos]
    push_cast
    linarith
  have hnearest : ((2 ^ 52 : ℤ) : ℚ) ≤ nearest (y / spacing y) := by
    exact_mod_cast le_nearest hbits
  calc (2 : ℚ) ^ j ≤ 2 ^ k := hjk
    _ = ((2 ^ 52 : ℤ) : ℚ) * spacing y := by
        push_cast
        linarith
    _ ≤ roundNearest y := mul_le_mul_of_nonneg_right hnearest hpos.le

/-- A power of two above a number is not below the double next to it. -/
theorem roundNearest_le_pow (hy : 1 ≤ y) {j : ℕ} (h : y < 2 ^ j) : roundNearest y ≤ 2 ^ j := by
  obtain ⟨k, hlower, hupper, hspacing⟩ := spacing_of_one_le hy
  have hpos : 0 < spacing y := by
    have hpow : (0 : ℚ) < 2 ^ k := by positivity
    linarith
  have hkj : (2 : ℚ) ^ (k + 1) ≤ 2 ^ j := by
    refine pow_le_pow_right₀ one_le_two ?_
    exact (pow_lt_pow_iff_right₀ one_lt_two).mp (hlower.trans_lt h)
  have hbits : y / spacing y ≤ ((2 ^ 53 : ℤ) : ℚ) := by
    rw [div_le_iff₀ hpos]
    push_cast
    rw [pow_succ] at hupper
    linarith
  have hnearest : (nearest (y / spacing y) : ℚ) ≤ ((2 ^ 53 : ℤ) : ℚ) := by
    exact_mod_cast nearest_le hbits
  calc roundNearest y ≤ ((2 ^ 53 : ℤ) : ℚ) * spacing y :=
        mul_le_mul_of_nonneg_right hnearest hpos.le
    _ = 2 ^ (k + 1) := by
        push_cast
        rw [pow_succ]
        linarith
    _ ≤ 2 ^ j := hkj

/-- A number half a spacing below a power of two, or less, is rounded to it. -/
theorem pow_le_roundNearest_of_near (hy : 1 ≤ y) {j : ℕ} (hlt : y < 2 ^ j)
    (hnear : 2 ^ j - spacing y / 2 ≤ y) : 2 ^ j ≤ roundNearest y := by
  obtain ⟨k, hlower, hupper, hspacing⟩ := spacing_of_one_le hy
  have hpow : (0 : ℚ) < 2 ^ k := by positivity
  have hpos : 0 < spacing y := by linarith
  have hsmall : spacing y ≤ y := by linarith
  have hkj : k + 1 = j := by
    have hle : k + 1 ≤ j := (pow_lt_pow_iff_right₀ one_lt_two).mp (hlower.trans_lt hlt)
    refine le_antisymm hle (not_lt.mp fun hlt' => ?_)
    have hdouble : (2 : ℚ) ^ (k + 1 + 1) ≤ 2 ^ j := pow_le_pow_right₀ one_le_two hlt'
    rw [pow_succ] at hdouble
    linarith
  have hbits : ¬y / spacing y < ((2 ^ 53 : ℤ) : ℚ) - 1 / 2 := by
    rw [not_lt, le_div_iff₀ hpos]
    rw [← hkj, pow_succ] at hnear
    push_cast
    linarith
  have hnearest : (2 ^ 53 : ℤ) ≤ nearest (y / spacing y) := by
    refine not_lt.mp fun h => ?_
    rcases nearest_lt_iff.mp h with h | ⟨-, h⟩
    · exact hbits h
    · exact h (by decide)
  have hcast : ((2 ^ 53 : ℤ) : ℚ) ≤ nearest (y / spacing y) := by exact_mod_cast hnearest
  calc (2 : ℚ) ^ j = ((2 ^ 53 : ℤ) : ℚ) * spacing y := by
        rw [← hkj, pow_succ]
        push_cast
        linarith
    _ ≤ roundNearest y := mul_le_mul_of_nonneg_right hcast hpos.le

/-- Below `2 ^ 53` every integer is a double: the integer part is lost when the next integer is
    nearest. -/
theorem floor_roundNearest_of_lt (hy : 1 ≤ y) (hlt : y < 2 ^ 53) :
    ⌊roundNearest y⌋ = ⌊y⌋ ↔ Int.fract y < 1 - spacing y / 2 ∨
      (2 ^ 52 ≤ y ∧ Int.fract y = 1 / 2 ∧ Even ⌊y⌋) := by
  obtain ⟨k, hlower, hupper, hspacing⟩ := spacing_of_one_le hy
  have hk : k ≤ 52 := by
    refine Nat.lt_succ_iff.mp ?_
    exact (pow_lt_pow_iff_right₀ (one_lt_two (α := ℚ))).mp (hlower.trans_lt hlt)
  obtain ⟨j, hj⟩ := Nat.exists_eq_add_of_le hk
  -- `2 ^ j` doubles begin with the same integer
  have hunit : spacing y * 2 ^ j = 1 := by
    have hpow : (2 : ℚ) ^ k ≠ 0 := by positivity
    refine mul_left_cancel₀ hpow ?_
    calc (2 : ℚ) ^ k * (spacing y * 2 ^ j) = spacing y * 2 ^ (k + j) := by ring
      _ = 2 ^ k * 1 := by rw [← hj, hspacing, mul_one]
  have hdiv : y / spacing y = y * 2 ^ j := by
    have hne : spacing y ≠ 0 := left_ne_zero_of_mul_eq_one hunit
    rw [div_eq_iff hne, mul_assoc, mul_comm (2 ^ j), hunit, mul_one]
  have hpos : (0 : ℚ) < 2 ^ j := by positivity
  have hround : roundNearest y * 2 ^ j = nearest (y * 2 ^ j) := by
    rw [roundNearest, hdiv, mul_assoc, hunit, mul_one]
  have hsum := Int.floor_add_fract y
  have hbelow : (⌊y⌋ : ℚ) ≤ roundNearest y := by
    have hle : ((⌊y⌋ * 2 ^ j : ℤ) : ℚ) ≤ y * 2 ^ j := by
      push_cast
      exact mul_le_mul_of_nonneg_right (Int.floor_le y) hpos.le
    have hnearest : ((⌊y⌋ * 2 ^ j : ℤ) : ℚ) ≤ nearest (y * 2 ^ j) := by
      exact_mod_cast le_nearest hle
    rw [← hround] at hnearest
    push_cast at hnearest
    exact le_of_mul_le_mul_right hnearest hpos
  have habove : roundNearest y < ⌊y⌋ + 1 ↔ nearest (y * 2 ^ j) < (⌊y⌋ + 1) * 2 ^ j := by
    rw [← mul_lt_mul_iff_left₀ hpos, hround]
    exact_mod_cast Iff.rfl
  rw [Int.floor_eq_iff, and_iff_right hbelow, habove, nearest_lt_iff]
  refine or_congr ?_ ?_
  · have hscaled : Int.fract y < 1 - spacing y / 2 ↔
        Int.fract y * 2 ^ j < (1 - spacing y / 2) * 2 ^ j := (mul_lt_mul_iff_left₀ hpos).symm
    have hhalf : (1 - spacing y / 2) * 2 ^ j = 2 ^ j - 1 / 2 := by linarith
    have hparts : y * 2 ^ j = ⌊y⌋ * 2 ^ j + Int.fract y * 2 ^ j := by rw [← add_mul, hsum]
    rw [hscaled, hhalf, hparts]
    push_cast
    constructor <;> intro <;> linarith
  · have heven : ¬Even ((⌊y⌋ + 1) * 2 ^ j) ↔ j = 0 ∧ Even ⌊y⌋ := by
      rw [Int.even_mul, Int.even_add_one, Int.even_pow]
      have htwo : Even (2 : ℤ) := even_two
      tauto
    have hzero : j = 0 ↔ 2 ^ 52 ≤ y := by
      constructor
      · rintro rfl
        rw [show k = 52 by omega] at hlower
        exact hlower
      · intro hle
        have hlog := (pow_lt_pow_iff_right₀ (one_lt_two (α := ℚ))).mp (hle.trans_lt hupper)
        omega
    rw [heven]
    constructor
    · rintro ⟨heq, hj0, hN⟩
      refine ⟨hzero.mp hj0, ?_, hN⟩
      rw [hj0] at heq
      push_cast at heq
      linarith
    · rintro ⟨hle, hfract, hN⟩
      have hj0 := hzero.mpr hle
      refine ⟨?_, hj0, hN⟩
      rw [hj0]
      push_cast
      linarith

/-- From `2 ^ 53` on the doubles are integers, and the integer part must be one of them. -/
theorem floor_roundNearest_of_le (hle : 2 ^ 53 ≤ y) :
    ⌊roundNearest y⌋ = ⌊y⌋ ↔ ∃ t : ℤ, (⌊y⌋ : ℚ) = t * spacing y := by
  have hy : 1 ≤ y := by linarith
  obtain ⟨k, hlower, hupper, hspacing⟩ := spacing_of_one_le hy
  have hk : 53 ≤ k := by
    refine Nat.lt_succ_iff.mp ?_
    exact (pow_lt_pow_iff_right₀ (one_lt_two (α := ℚ))).mp (hle.trans_lt hupper)
  obtain ⟨j, rfl⟩ := Nat.exists_eq_add_of_le hk
  have hunit : spacing y = ((2 ^ (j + 1) : ℤ) : ℚ) := by
    have hpow : (2 : ℚ) ^ (53 + j) = 2 ^ (j + 1) * 2 ^ 52 := by ring
    rw [hpow] at hspacing
    push_cast
    exact mul_right_cancel₀ (by norm_num) hspacing
  have htwo : (2 : ℚ) ≤ spacing y := by
    rw [hunit]
    push_cast
    rw [pow_succ]
    have hone : (1 : ℚ) ≤ 2 ^ j := one_le_pow₀ one_le_two
    linarith
  have hpos : 0 < spacing y := by linarith
  have hfloor : (⌊roundNearest y⌋ : ℚ) = nearest (y / spacing y) * spacing y := by
    rw [roundNearest, hunit, ← Int.cast_mul, Int.floor_intCast]
  constructor
  · intro heq
    exact ⟨nearest (y / spacing y), by rw [← hfloor, heq]⟩
  · rintro ⟨t, ht⟩
    have hlow : (t : ℚ) ≤ y / spacing y := by
      rw [le_div_iff₀ hpos, ← ht]
      exact Int.floor_le y
    -- the rest of the number is less than half a spacing
    have hhigh : y / spacing y < (t + 1 : ℤ) - 1 / 2 := by
      rw [div_lt_iff₀ hpos]
      push_cast
      have hlt := Int.lt_floor_add_one y
      rw [ht] at hlt
      linarith
    have hnearest : nearest (y / spacing y) = t := by
      have hge := le_nearest hlow
      have hlt := nearest_lt_iff.mpr (.inl hhigh)
      omega
    have hcast : (⌊roundNearest y⌋ : ℚ) = ⌊y⌋ := by rw [hfloor, hnearest, ht]
    exact Int.cast_injective hcast

/-- The number is rounded within the integers that its integer part begins: below `2 ^ 53` its
    fraction is at least half a spacing below 1, and from there on the integer part is a double. -/
def KeepsFloor (y : ℚ) : Prop :=
  if y < 2 ^ 53 then
    Int.fract y < 1 - spacing y / 2 ∨ (2 ^ 52 ≤ y ∧ Int.fract y = 1 / 2 ∧ Even ⌊y⌋)
  else ∃ t : ℤ, (⌊y⌋ : ℚ) = t * spacing y

/-- **The integer part survives rounding** exactly for these numbers. -/
theorem floor_roundNearest_iff (hy : 1 ≤ y) : ⌊roundNearest y⌋ = ⌊y⌋ ↔ KeepsFloor y := by
  unfold KeepsFloor
  split
  · rename_i hlt
    exact floor_roundNearest_of_lt hy hlt
  · rename_i hle
    exact floor_roundNearest_of_le (not_lt.mp hle)

end Binary64
