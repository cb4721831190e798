import Koschei.Lib.StableSort
import Mathlib.Algebra.Order.Ring.Int
import Mathlib.Data.Nat.Log

/-!
# Decimal numbers

A decimal number is a coefficient and an exponent of ten. Arithmetic is exact and
then rounded to the 28 digits of the default context, half to even; numbers below
the least exponent are rounded at that exponent.

A sum of money is a whole number of cents. A product with a hundred that is a
whole number and small is a sum of cents, but the number it is the product of
need not be: a number of more digits is rounded before.
-/

namespace Koschei.Lib

/-! ## Rounding -/

/-- The digits of the context, and its least and greatest exponents. -/
def contextDigits : Nat := 28

def leastExponent : Int := -1000026

def greatestExponent : Int := 999999

/-- The number of decimal digits, one for zero. -/
def digitCount (n : Nat) : Nat := Nat.log 10 n + 1

/-- The digits of a coefficient that are rounded away. -/
def excessDigits (n : Nat) (exponent : Int) : Nat :=
  max (digitCount n - contextDigits) (leastExponent - exponent).toNat

def roundCoefficient (n : Nat) (exponent : Int) : Nat := roundAt (10 ^ excessDigits n exponent) n

variable {unit n digits : Nat}

theorem roundAt_of_dvd (divides : unit ∣ n) : roundAt unit n = n := by
  have exact : n % unit = 0 := Nat.mod_eq_zero_of_dvd divides
  have stays : ¬ RoundsUp unit n := by
    unfold RoundsUp
    rw [exact]
    rintro (above | ⟨middle, odd⟩)
    · omega
    · rw [← middle, Nat.div_zero] at odd
      omega
  unfold roundAt
  rw [if_neg stays, Nat.div_mul_cancel divides]

theorem le_roundAt_of_dvd {unit n bound : Nat} (divides : unit ∣ bound) (below : bound ≤ n) :
    bound ≤ roundAt unit n := by
  have least := roundAt_mono unit below
  rwa [roundAt_of_dvd divides] at least

theorem digitCount_le (positive : 0 < digits) (small : n < 10 ^ digits) :
    digitCount n ≤ digits := by
  unfold digitCount
  have less := Nat.log_lt_of_lt_pow' (b := 10) (by omega : digits ≠ 0) small
  omega

theorem lt_digitCount (large : 10 ^ digits ≤ n) : digits < digitCount n := by
  unfold digitCount
  have least := Nat.le_log_of_pow_le (b := 10) (by decide) large
  omega

theorem pow_le_of_digitCount (positive : n ≠ 0) : 10 ^ (digitCount n - 1) ≤ n :=
  Nat.pow_log_le_self 10 positive

/-! ## Money -/

/-- A number of thousandths, to the nearest whole one, half up, and to the next one. -/
def halfUpThousand (n : Nat) : Nat := (n + 500) / 1000

def ceilThousand (n : Nat) : Nat := (n + 999) / 1000

/-- The half-up rounded number grows by at most the rounded-up part that is added. -/
theorem halfUpThousand_add (p d : Nat) :
    halfUpThousand (p + d) ≤ halfUpThousand p + ceilThousand d := by
  unfold halfUpThousand ceilThousand
  omega

theorem ceilThousand_mono {n m : Nat} (le : n ≤ m) : ceilThousand n ≤ ceilThousand m := by
  unfold ceilThousand
  omega

theorem roundCoefficient_of_lt {exponent : Int} (small : n < 10 ^ contextDigits)
    (normal : leastExponent ≤ exponent) : roundCoefficient n exponent = n := by
  have few := digitCount_le (by decide) small
  have none : excessDigits n exponent = 0 := by
    unfold excessDigits
    omega
  unfold roundCoefficient
  rw [none, Nat.pow_zero]
  exact roundAt_of_dvd (Nat.one_dvd n)

/-! ## Decimals -/

/-- A finite decimal number. -/
structure Decimal where
  coefficient : Int
  exponent : Int
  deriving DecidableEq

/-- A number is worth a number of hundredths. -/
def Decimal.Cents (amount : Decimal) (cents : Int) : Prop :=
  amount.coefficient * 100 * 10 ^ amount.exponent.toNat = cents * 10 ^ (-amount.exponent).toNat

/-- A decimal that is not negative, times a hundred, as an integer; it is refused when the rounded
product is no integer or has too great an exponent. -/
def Decimal.hundredfold (amount : Decimal) : Except String Nat :=
  let product := roundCoefficient (amount.coefficient.toNat * 100) amount.exponent
  if product ≠ 0 ∧ greatestExponent < amount.exponent + digitCount product - 1 then
    .error "decimal.Overflow"
  else if product % 10 ^ (-amount.exponent).toNat ≠ 0 then
    .error "balance must have cent precision"
  else .ok (product / 10 ^ (-amount.exponent).toNat * 10 ^ amount.exponent.toNat)

theorem le_roundCoefficient (exponent : Int) (large : 10 ^ digits ≤ n)
    (normal : (leastExponent - exponent).toNat ≤ digits) :
    10 ^ digits ≤ roundCoefficient n exponent := by
  have more := lt_digitCount large
  have positive : n ≠ 0 := ne_of_gt ((Nat.pow_pos (by decide)).trans_le large)
  have unit : excessDigits n exponent ≤ digitCount n - 1 := by
    unfold excessDigits contextDigits
    omega
  have first : 10 ^ digits ≤ 10 ^ (digitCount n - 1) := Nat.pow_le_pow_right (by decide) (by omega)
  exact first.trans (le_roundAt_of_dvd (Nat.pow_dvd_pow 10 unit) (pow_le_of_digitCount positive))

/-- A whole number of cents is not rounded when what it would be rounded to has few digits. -/
theorem roundCoefficient_of_cents {n c : Nat} {exponent : Int}
    (worth : n * 10 ^ exponent.toNat = c * 10 ^ (-exponent).toNat)
    (fits : roundCoefficient n exponent / 10 ^ (-exponent).toNat * 10 ^ exponent.toNat <
      10 ^ contextDigits) : roundCoefficient n exponent = n := by
  rcases le_or_gt 0 exponent with whole | part
  · have none : (-exponent).toNat = 0 := by omega
    have normal : leastExponent ≤ exponent := le_trans (by decide) whole
    rw [none, Nat.pow_zero, Nat.div_one] at fits
    refine roundCoefficient_of_lt ?_ normal
    by_contra large
    have stays := le_roundCoefficient exponent (not_lt.mp large) (by omega)
    have more := Nat.le_mul_of_pos_right (roundCoefficient n exponent)
      (Nat.pow_pos (n := exponent.toNat) (by decide : 0 < 10))
    omega
  · have none : exponent.toNat = 0 := by omega
    rw [none, Nat.pow_zero, Nat.mul_one] at worth fits
    have unitPositive : 0 < 10 ^ (-exponent).toNat := Nat.pow_pos (by decide)
    rcases lt_or_ge c (10 ^ contextDigits) with few | many
    · have small : n < 10 ^ (contextDigits + (-exponent).toNat) := by
        rw [worth, Nat.pow_add]
        exact Nat.mul_lt_mul_of_pos_right few unitPositive
      have digits := digitCount_le (Nat.lt_of_lt_of_le (by decide) (Nat.le_add_right _ _)) small
      have excess : excessDigits n exponent ≤ (-exponent).toNat := by
        unfold excessDigits leastExponent
        omega
      refine roundAt_of_dvd ((Nat.pow_dvd_pow 10 excess).trans ?_)
      rw [worth]
      exact Nat.dvd_mul_left _ _
    · have large : 10 ^ (contextDigits + (-exponent).toNat) ≤ n := by
        rw [worth, Nat.pow_add]
        exact Nat.mul_le_mul_right _ many
      have stays := le_roundCoefficient exponent large (by
        unfold leastExponent
        omega)
      rw [Nat.pow_add] at stays
      have quotient := (Nat.le_div_iff_mul_le unitPositive).mpr stays
      exact absurd fits (not_lt.mpr quotient)

/-- A hundredfold of few digits is the worth of a number that is worth a whole number of cents. -/
theorem Decimal.hundredfold_exact_iff {amount : Decimal} {cents : Nat}
    (nonnegative : 0 ≤ amount.coefficient) (ran : amount.hundredfold = .ok cents)
    (fits : cents < 10 ^ contextDigits) : (∃ c, amount.Cents c) ↔ amount.Cents cents := by
  refine ⟨?_, fun exact => ⟨cents, exact⟩⟩
  rintro ⟨c, worth⟩
  unfold Decimal.Cents at worth ⊢
  obtain ⟨n, number⟩ := Int.eq_ofNat_of_zero_le nonnegative
  rw [number] at worth ⊢
  have coefficient : (n : Int) * 100 = ((n * 100 : Nat) : Int) := by omega
  have toNat : amount.coefficient.toNat * 100 = n * 100 := by omega
  have positive : (0 : Int) < 10 ^ (-amount.exponent).toNat := Int.pow_pos (by decide)
  have nonneg : 0 ≤ c := by
    by_contra negative
    have below := Int.mul_neg_of_neg_of_pos (not_le.mp negative) positive
    have above : 0 ≤ (n : Int) * 100 * 10 ^ amount.exponent.toNat :=
      Int.mul_nonneg (by omega) (Int.le_of_lt (Int.pow_pos (by decide)))
    omega
  obtain ⟨c, rfl⟩ := Int.eq_ofNat_of_zero_le nonneg
  rw [coefficient] at worth ⊢
  have worth' : n * 100 * 10 ^ amount.exponent.toNat = c * 10 ^ (-amount.exponent).toNat := by
    exact_mod_cast worth
  unfold Decimal.hundredfold at ran
  rw [toNat] at ran
  dsimp only at ran
  split at ran
  · cases ran
  · split at ran
    · cases ran
    · rename_i _ whole
      cases ran
      have kept := roundCoefficient_of_cents worth' fits
      rw [kept] at whole ⊢
      rcases le_or_gt 0 amount.exponent with above | below
      · have none : (-amount.exponent).toNat = 0 := by omega
        rw [none, Nat.pow_zero, Nat.div_one]
        push_cast
        omega
      · have none : amount.exponent.toNat = 0 := by omega
        have exact := Nat.div_mul_cancel (Nat.dvd_of_mod_eq_zero (not_not.mp whole))
        rw [none, Nat.pow_zero, Nat.mul_one, Int.pow_zero, Int.mul_one]
        exact_mod_cast exact.symm

end Koschei.Lib
