import Mathlib.Data.Int.Log
import Mathlib.Data.Rat.Floor
import Mathlib.Tactic.FieldSimp
import Mathlib.Tactic.Linarith
import Mathlib.Tactic.NormNum
import Mathlib.Tactic.Positivity

/-!
# Rounding to double precision

The quotient of two integers as a floating point division computes it: the exact quotient, rounded
to the nearest number of 53 binary digits, ties to an even last digit.
-/

namespace EnjiGuard.Foundation

/-- The integer nearest to a number, the even one of two. -/
def roundHalfEven (x : ℚ) : ℤ :=
  if x - ⌊x⌋ < 1 / 2 then ⌊x⌋
  else if 1 / 2 < x - ⌊x⌋ then ⌊x⌋ + 1
  else if ⌊x⌋ % 2 = 0 then ⌊x⌋ else ⌊x⌋ + 1

/-- The distance of neighbouring doubles around a positive number. -/
def unitInLastPlace (x : ℚ) : ℚ := 2 ^ max (Int.log 2 x - 52) (-1074)

/-- The double nearest to a number, as far as its exponent goes. -/
def nearestDouble (x : ℚ) : ℚ :=
  if x = 0 then 0
  else if 0 < x then roundHalfEven (x / unitInLastPlace x) * unitInLastPlace x
  else -(roundHalfEven (-x / unitInLastPlace (-x)) * unitInLastPlace (-x))

/-- An integer from a number, towards zero. -/
def truncate (x : ℚ) : ℤ := if 0 ≤ x then ⌊x⌋ else ⌈x⌉

/-- The whole seconds of a span in microseconds, by a floating point division. -/
def wholeSeconds (micros : ℤ) : ℤ := truncate (nearestDouble (micros / 1000000))

section Rounding

variable {x u : ℚ} {n : ℤ}

lemma abs_roundHalfEven_sub (x : ℚ) : |(roundHalfEven x : ℚ) - x| ≤ 1 / 2 := by
  have hfloor := Int.floor_le x
  have hlt := Int.lt_floor_add_one x
  rw [abs_le, roundHalfEven]
  split_ifs with h1 h2 h3
  · constructor <;> linarith
  · constructor <;> push_cast <;> linarith
  · constructor <;> linarith
  · constructor <;> push_cast <;> linarith

/-- Rounding stays above an integer. -/
lemma le_roundHalfEven (h : (n : ℚ) ≤ x) : n ≤ roundHalfEven x := by
  have hfloor : n ≤ ⌊x⌋ := Int.le_floor.2 h
  rw [roundHalfEven]
  split_ifs <;> omega

lemma unitInLastPlace_pos (x : ℚ) : 0 < unitInLastPlace x := by
  exact zpow_pos (by norm_num) _

/-- A positive number is rounded to a multiple of the distance of the doubles around it. -/
lemma nearestDouble_of_pos (hx : 0 < x) :
    nearestDouble x = roundHalfEven (x / unitInLastPlace x) * unitInLastPlace x := by
  rw [nearestDouble, if_neg hx.ne', if_pos hx]

/-- Above one, neighbouring doubles are no further apart than they are from zero. -/
lemma unitInLastPlace_le_max (hx : 0 < x) : unitInLastPlace x ≤ max x 1 := by
  rw [unitInLastPlace]
  rcases le_total (Int.log 2 x - 52) (-1074) with hsmall | hlarge
  · rw [max_eq_right hsmall]
    exact le_max_of_le_right (zpow_le_one_of_nonpos₀ (by norm_num) (by norm_num))
  · rw [max_eq_left hlarge]
    refine le_max_of_le_left (le_trans ?_ (Int.zpow_log_le_self (b := 2) (by norm_num) hx))
    exact zpow_le_zpow_right₀ (by norm_num) (by omega)

lemma nearestDouble_mem_of_pos (hx : 0 < x) :
    0 ≤ nearestDouble x ∧ nearestDouble x ≤ x + max x 1 / 2 := by
  have hunit := unitInLastPlace_pos x
  have hrounded := (abs_le.1 (abs_roundHalfEven_sub (x / unitInLastPlace x))).2
  have hnonneg : 0 ≤ roundHalfEven (x / unitInLastPlace x) :=
    le_roundHalfEven (by simpa using (div_pos hx hunit).le)
  rw [nearestDouble_of_pos hx]
  refine ⟨mul_nonneg (by exact_mod_cast hnonneg) hunit.le, ?_⟩
  calc (roundHalfEven (x / unitInLastPlace x) : ℚ) * unitInLastPlace x
      ≤ (x / unitInLastPlace x + 1 / 2) * unitInLastPlace x :=
        mul_le_mul_of_nonneg_right (by linarith) hunit.le
    _ = x + unitInLastPlace x / 2 := by field_simp
    _ ≤ x + max x 1 / 2 := by linarith [unitInLastPlace_le_max hx]

/-- The whole seconds of a span are at most twice its microseconds. -/
lemma wholeSeconds_le (micros : ℤ) : wholeSeconds micros ≤ 2 * |micros| := by
  rcases lt_trichotomy micros 0 with hneg | rfl | hpos
  · -- a negative span is rounded to no more than zero
    have hquotient : (micros : ℚ) / 1000000 < 0 := by
      have hcast : (micros : ℚ) < 0 := by exact_mod_cast hneg
      linarith
    have hrounded : nearestDouble ((micros : ℚ) / 1000000) ≤ 0 := by
      have hmirror := (nearestDouble_mem_of_pos (neg_pos.2 hquotient)).1
      rw [nearestDouble_of_pos (neg_pos.2 hquotient)] at hmirror
      rw [nearestDouble, if_neg hquotient.ne, if_neg (not_lt.2 hquotient.le)]
      linarith
    have htruncated : wholeSeconds micros ≤ 0 := by
      rw [wholeSeconds, truncate]
      split_ifs with hzero
      · rw [le_antisymm hrounded hzero, Int.floor_zero]
      · exact Int.ceil_le.2 (by simpa using hrounded)
    exact htruncated.trans (by positivity)
  · decide +kernel
  · have hcast : (1 : ℚ) ≤ micros := by exact_mod_cast hpos
    have hquotient : (0 : ℚ) < micros / 1000000 := by positivity
    obtain ⟨hnonneg, hrounded⟩ := nearestDouble_mem_of_pos hquotient
    have hmax : max ((micros : ℚ) / 1000000) 1 ≤ micros :=
      max_le (by linarith) hcast
    rw [wholeSeconds, truncate, if_pos hnonneg, abs_of_pos hpos]
    have hfloor := Int.floor_le (nearestDouble ((micros : ℚ) / 1000000))
    have hle : (⌊nearestDouble ((micros : ℚ) / 1000000)⌋ : ℚ) ≤ 2 * micros := by linarith
    exact_mod_cast hle

end Rounding

end EnjiGuard.Foundation
