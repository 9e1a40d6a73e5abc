import Mathlib.Data.Nat.Basic
import Mathlib.Tactic.Common

/-!
# Proleptic Gregorian calendar

Day ordinals and civil dates, with day `1` being the first of January of year `1`. The two
conversions follow the algorithms of the standard library's `datetime` module; the main result
is that the date of an ordinal has that ordinal.
-/

namespace EnjiGuard.Foundation

/-- Whether a year has a twenty-ninth of February. -/
def isLeap (year : Nat) : Bool :=
  year % 4 = 0 ∧ (year % 100 ≠ 0 ∨ year % 400 = 0)

/-- The days before the first of January of a year. -/
def daysBeforeYear (year : Nat) : Nat :=
  (year - 1) * 365 + (year - 1) / 4 - (year - 1) / 100 + (year - 1) / 400

def daysInMonth (leap : Bool) : Nat → Nat
  | 2 => if leap then 29 else 28
  | 4 | 6 | 9 | 11 => 30
  | 1 | 3 | 5 | 7 | 8 | 10 | 12 => 31
  | _ => 0

/-- The days of a year before the first of a month. -/
def daysBeforeMonth (leap : Bool) : Nat → Nat
  | 0 => 0
  | m + 1 => daysBeforeMonth leap m + daysInMonth leap m

/-- A civil date; well-formedness is `CivilDate.Valid`. -/
structure CivilDate where
  year : Nat
  month : Nat
  day : Nat
  deriving DecidableEq, Repr

/-- The last year a date can have. -/
def maxYear : Nat := 9999

/-- The ordinal of the last day of `maxYear`. -/
def maxOrdinal : Nat := 3652059

/-- The range check of the date constructor. -/
def CivilDate.Valid (d : CivilDate) : Prop :=
  1 ≤ d.year ∧ d.year ≤ maxYear ∧ 1 ≤ d.month ∧ d.month ≤ 12 ∧
    1 ≤ d.day ∧ d.day ≤ daysInMonth (isLeap d.year) d.month

instance (d : CivilDate) : Decidable d.Valid := by
  unfold CivilDate.Valid; infer_instance

def CivilDate.toOrdinal (d : CivilDate) : Nat :=
  daysBeforeYear d.year + daysBeforeMonth (isLeap d.year) d.month + d.day

/-- The month and day of a day of the year, counted from zero. -/
def monthDay (leap : Bool) (dayOfYear : Nat) : Nat × Nat :=
  let estimate := (dayOfYear + 50) / 32
  let month := if dayOfYear < daysBeforeMonth leap estimate then estimate - 1 else estimate
  (month, dayOfYear - daysBeforeMonth leap month + 1)

def civilOfOrdinal (ordinal : Nat) : CivilDate :=
  let n := ordinal - 1
  let (n400, n) := (n / 146097, n % 146097)
  let (n100, n) := (n / 36524, n % 36524)
  let (n4, n) := (n / 1461, n % 1461)
  let (n1, n) := (n / 365, n % 365)
  let year := n400 * 400 + n100 * 100 + n4 * 4 + n1 + 1
  if n1 = 4 ∨ n100 = 4 then ⟨year - 1, 12, 31⟩
  else
    let leap := decide (n1 = 3 ∧ (n4 ≠ 24 ∨ n100 = 3))
    ⟨year, (monthDay leap n).1, (monthDay leap n).2⟩

/-! ### The date of an ordinal has that ordinal -/

/-- Within one year the month and day add up to the day of the year. -/
lemma monthDay_spec (leap : Bool) {n : Nat} (h : n < if leap then 366 else 365) :
    daysBeforeMonth leap (monthDay leap n).1 + (monthDay leap n).2 = n + 1 ∧
      1 ≤ (monthDay leap n).1 ∧ (monthDay leap n).1 ≤ 12 ∧
      1 ≤ (monthDay leap n).2 ∧
      (monthDay leap n).2 ≤ daysInMonth leap (monthDay leap n).1 := by
  have key : ∀ (leap : Bool) (n : Fin 366), (n : Nat) < (if leap then 366 else 365) →
      daysBeforeMonth leap (monthDay leap n).1 + (monthDay leap n).2 = n + 1 ∧
        1 ≤ (monthDay leap n).1 ∧ (monthDay leap n).1 ≤ 12 ∧
        1 ≤ (monthDay leap n).2 ∧
        (monthDay leap n).2 ≤ daysInMonth leap (monthDay leap n).1 := by
    decide +kernel
  exact key leap ⟨n, by cases leap <;> simp at h <;> omega⟩ h

/-- A year written by its position in the 400-, 100- and 4-year cycles. -/
lemma daysBeforeYear_cycles {a b c e : Nat} (hb : b ≤ 3) (hc : c ≤ 24) (he : e ≤ 3) :
    daysBeforeYear (a * 400 + b * 100 + c * 4 + e + 1) =
      146097 * a + 36524 * b + 1461 * c + 365 * e := by
  unfold daysBeforeYear
  have h4 : (a * 400 + b * 100 + c * 4 + e) / 4 = 100 * a + 25 * b + c := by omega
  have h100 : (a * 400 + b * 100 + c * 4 + e) / 100 = 4 * a + b := by omega
  have h400 : (a * 400 + b * 100 + c * 4 + e) / 400 = a := by omega
  simp only [Nat.add_sub_cancel, h4, h100, h400]
  omega

/-- The leap years by their position in the cycles. -/
lemma isLeap_cycles {a b c e : Nat} (hb : b ≤ 3) (hc : c ≤ 24) (he : e ≤ 3) :
    isLeap (a * 400 + b * 100 + c * 4 + e + 1) = decide (e = 3 ∧ (c ≠ 24 ∨ b = 3)) := by
  unfold isLeap
  rw [decide_eq_decide]
  omega

/-- The cycle positions of an ordinal below the last one, away from the ends of cycles. -/
lemma civilOfOrdinal_spec {ordinal : Nat} (h1 : 1 ≤ ordinal) (h2 : ordinal ≤ maxOrdinal) :
    (civilOfOrdinal ordinal).toOrdinal = ordinal ∧ (civilOfOrdinal ordinal).Valid := by
  unfold maxOrdinal at h2
  obtain ⟨a, ha⟩ : ∃ a, a = (ordinal - 1) / 146097 := ⟨_, rfl⟩
  obtain ⟨r, hr⟩ : ∃ r, r = (ordinal - 1) % 146097 := ⟨_, rfl⟩
  obtain ⟨b, hb⟩ : ∃ b, b = r / 36524 := ⟨_, rfl⟩
  obtain ⟨r', hr'⟩ : ∃ r', r' = r % 36524 := ⟨_, rfl⟩
  obtain ⟨c, hc⟩ : ∃ c, c = r' / 1461 := ⟨_, rfl⟩
  obtain ⟨r'', hr''⟩ : ∃ r'', r'' = r' % 1461 := ⟨_, rfl⟩
  obtain ⟨e, he⟩ : ∃ e, e = r'' / 365 := ⟨_, rfl⟩
  obtain ⟨d, hd⟩ : ∃ d, d = r'' % 365 := ⟨_, rfl⟩
  have hsum : ordinal = 146097 * a + 36524 * b + 1461 * c + 365 * e + d + 1 := by omega
  have hb4 : b ≤ 4 := by omega
  have hc24 : c ≤ 24 := by omega
  have he4 : e ≤ 4 := by omega
  have hdate : civilOfOrdinal ordinal =
      if e = 4 ∨ b = 4 then ⟨a * 400 + b * 100 + c * 4 + e + 1 - 1, 12, 31⟩
      else
        ⟨a * 400 + b * 100 + c * 4 + e + 1,
          (monthDay (decide (e = 3 ∧ (c ≠ 24 ∨ b = 3))) d).1,
          (monthDay (decide (e = 3 ∧ (c ≠ 24 ∨ b = 3))) d).2⟩ := by
    subst ha hr hb hr' hc hr'' he hd; rfl
  rw [hdate]
  split_ifs with hend
  · -- the last day of a leap cycle: the year before, the thirty-first of December
    have hlast : ∃ b' c' e', b' ≤ 3 ∧ c' ≤ 24 ∧ e' = 3 ∧ (c' ≠ 24 ∨ b' = 3) ∧
        a * 400 + b * 100 + c * 4 + e = a * 400 + b' * 100 + c' * 4 + e' + 1 ∧
        ordinal = 146097 * a + 36524 * b' + 1461 * c' + 365 * e' + 366 := by
      rcases Nat.lt_or_ge b 4 with hb' | hb'
      · exact ⟨b, c, 3, by omega, by omega, rfl, by omega, by omega, by omega⟩
      · exact ⟨3, 24, 3, by omega, by omega, rfl, by omega, by omega, by omega⟩
    obtain ⟨b', c', e', hb', hc', he', hleap, hyear, hord⟩ := hlast
    have hy : a * 400 + b * 100 + c * 4 + e + 1 - 1 = a * 400 + b' * 100 + c' * 4 + e' + 1 := by
      omega
    have hl : isLeap (a * 400 + b' * 100 + c' * 4 + e' + 1) = true := by
      rw [isLeap_cycles hb' hc' (by omega)]; simp [he', hleap]
    rw [hy]
    simp only [CivilDate.toOrdinal, CivilDate.Valid, hl,
      daysBeforeYear_cycles hb' hc' (show e' ≤ 3 by omega)]
    have h12 : daysBeforeMonth true 12 = 335 := by decide
    have h31 : daysInMonth true 12 = 31 := by decide
    simp only [h12, h31, maxYear]
    omega
  · have hb3 : b ≤ 3 := by omega
    have he3 : e ≤ 3 := by omega
    have hleap := isLeap_cycles (a := a) hb3 hc24 he3
    simp only [CivilDate.toOrdinal, CivilDate.Valid, hleap, daysBeforeYear_cycles hb3 hc24 he3]
    obtain ⟨hmd, hm1, hm12, hd1, hdm⟩ := monthDay_spec (decide (e = 3 ∧ (c ≠ 24 ∨ b = 3)))
      (n := d) (by split <;> omega)
    refine ⟨by omega, by omega, ?_, hm1, hm12, hd1, hdm⟩
    unfold maxYear; omega

end EnjiGuard.Foundation
