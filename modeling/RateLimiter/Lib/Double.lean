import Mathlib.Algebra.Ring.Int.Defs
import Mathlib.Algebra.Ring.Nat

/-!
# Integers as IEEE doubles

Languages whose only numbers are binary64 floating-point numbers hold every
integer of magnitude up to `2 ^ 53` exactly and round larger ones to the
nearest representable integer, ties to the even significand. The exponent
range is not reached by the integers of this development and is not modelled.
-/

namespace Double

/-- Rounds a natural number to the nearest one with a 53-bit significand. -/
def roundNat (number : ℕ) : ℕ :=
  if number ≤ 2 ^ 53 then number
  else
    let unit := 2 ^ (number.log2 - 52)
    let quotient := number / unit
    let remainder := number % unit
    if 2 * remainder < unit ∨ 2 * remainder = unit ∧ quotient % 2 = 0 then quotient * unit
    else (quotient + 1) * unit

/-- Rounds an integer to the nearest double, symmetrically in the sign. -/
def roundInt (number : ℤ) : ℤ :=
  if number < 0 then -(roundNat number.natAbs : ℤ) else roundNat number.natAbs

theorem roundInt_natCast (number : ℕ) : roundInt number = roundNat number := by
  simp only [roundInt, Int.natAbs_natCast]
  exact if_neg (by omega)

/-- Integers of magnitude up to `2 ^ 53` are represented exactly. -/
theorem roundInt_eq_self {number : ℤ} (lower : -2 ^ 53 ≤ number) (upper : number ≤ 2 ^ 53) :
    roundInt number = number := by
  have exact : number.natAbs ≤ 2 ^ 53 := by omega
  simp only [roundInt, roundNat, exact, if_true]
  split <;> omega

/-- A significand of at most 53 bits is kept. -/
theorem roundNat_mul_two_pow {significand exponent : ℕ} (short : significand ≤ 2 ^ 53) :
    roundNat (significand * 2 ^ exponent) = significand * 2 ^ exponent := by
  unfold roundNat
  split
  · rfl
  · rename_i large
    have nonzero : significand * 2 ^ exponent ≠ 0 := by omega
    have divides : 2 ^ ((significand * 2 ^ exponent).log2 - 52) ∣ significand * 2 ^ exponent := by
      rcases Nat.lt_or_eq_of_le short with less | rfl
      · have below : significand * 2 ^ exponent < 2 ^ (53 + exponent) := by
          rw [Nat.pow_add]
          exact Nat.mul_lt_mul_of_pos_right less (Nat.two_pow_pos exponent)
        have bits := (Nat.log2_lt nonzero).mpr below
        exact Nat.dvd_trans (Nat.pow_dvd_pow 2 (by omega)) (Nat.dvd_mul_left _ _)
      · rw [← Nat.pow_add] at nonzero ⊢
        rw [Nat.log2_two_pow]
        exact Nat.pow_dvd_pow 2 (by omega)
    have noRemainder := Nat.mod_eq_zero_of_dvd divides
    have quotient := Nat.div_mul_cancel divides
    have positive := Nat.two_pow_pos ((significand * 2 ^ exponent).log2 - 52)
    simp only [noRemainder, quotient, Nat.mul_zero, positive, true_or, if_true]

theorem exists_roundNat_eq (number : ℕ) :
    ∃ significand exponent, significand ≤ 2 ^ 53 ∧
      roundNat number = significand * 2 ^ exponent := by
  unfold roundNat
  split
  · rename_i small
    exact ⟨number, 0, small, by simp⟩
  · rename_i large
    have nonzero : number ≠ 0 := by omega
    have wide : 52 ≤ number.log2 := by
      apply (Nat.le_log2 nonzero).mpr
      exact Nat.le_trans (Nat.pow_le_pow_right (by decide) (by decide))
        (Nat.le_of_not_le large)
    have quotientLt : number / 2 ^ (number.log2 - 52) < 2 ^ 53 := by
      apply Nat.div_lt_of_lt_mul
      rw [← Nat.pow_add, show number.log2 - 52 + 53 = number.log2 + 1 by omega]
      exact (Nat.log2_lt nonzero).mp (Nat.lt_succ_self _)
    dsimp only
    split
    · exact ⟨_, _, Nat.le_of_lt quotientLt, rfl⟩
    · exact ⟨_, _, quotientLt, rfl⟩

theorem roundNat_roundNat (number : ℕ) : roundNat (roundNat number) = roundNat number := by
  rcases exists_roundNat_eq number with ⟨significand, exponent, short, isProduct⟩
  rw [isProduct]
  exact roundNat_mul_two_pow short

/-- A number that was rounded once is exact, and so is its opposite. -/
theorem roundInt_neg_roundInt (number : ℤ) : roundInt (-roundInt number) = -roundInt number := by
  have twice := roundNat_roundNat number.natAbs
  simp only [roundInt]
  split
  · simp only [Int.neg_neg, Int.natAbs_natCast, twice]
    split <;> omega
  · simp only [Int.natAbs_neg, Int.natAbs_natCast, twice]
    split <;> omega

theorem roundInt_nonneg {number : ℤ} (nonneg : 0 ≤ number) : 0 ≤ roundInt number := by
  simp only [roundInt]
  split <;> omega

/-- The distance of neighbouring doubles at an integer. -/
def spacing (number : ℤ) : ℕ :=
  2 ^ (number.natAbs.log2 - 52)

/-- What rounding adds to an integer. -/
def error (number : ℤ) : ℤ :=
  roundInt number - number

/-- The nearest double of an integer, ties to the even significand. -/
structure Nearest (number result : ℤ) : Prop where
  grid : (spacing number : ℤ) ∣ result
  near : 2 * (result - number).natAbs ≤ spacing number
  even : 2 * (result - number).natAbs = spacing number → (2 * spacing number : ℤ) ∣ result

theorem spacing_pos (number : ℤ) : 0 < spacing number :=
  Nat.two_pow_pos _

theorem spacing_neg (number : ℤ) : spacing (-number) = spacing number := by
  simp only [spacing, Int.natAbs_neg]

/-- The doubles get sparser away from zero. -/
theorem spacing_dvd {first second : ℤ} (nonneg : 0 ≤ first) (le : first ≤ second) :
    spacing first ∣ spacing second := by
  apply Nat.pow_dvd_pow
  by_cases zero : first = 0
  · simp [zero]
  · have bits : first.natAbs.log2 ≤ second.natAbs.log2 := by
      apply (Nat.le_log2 (by omega)).mpr
      have := Nat.log2_self_le (show first.natAbs ≠ 0 by omega)
      omega
    omega

namespace Nearest

theorem neg {number result : ℤ} (nearest : Nearest number result) :
    Nearest (-number) (-result) := by
  have distance : (-result - -number).natAbs = (result - number).natAbs := by omega
  constructor
  · rw [spacing_neg]
    exact (Int.dvd_neg).mpr nearest.grid
  · rw [spacing_neg, distance]
    exact nearest.near
  · rw [spacing_neg, distance]
    exact fun tie => (Int.dvd_neg).mpr (nearest.even tie)

/-- Two neighbours at the same distance would both have an even significand. -/
theorem unique {number first second : ℤ} (isFirst : Nearest number first)
    (isSecond : Nearest number second) : first = second := by
  rcases isFirst with ⟨⟨firstSignificand, rfl⟩, firstNear, firstEven⟩
  rcases isSecond with ⟨⟨secondSignificand, rfl⟩, secondNear, secondEven⟩
  have positive := spacing_pos number
  have apart : (spacing number : ℤ) * (firstSignificand - secondSignificand) =
      spacing number * firstSignificand - spacing number * secondSignificand := Int.mul_sub ..
  have upper : firstSignificand - secondSignificand ≤ 1 := by
    apply Int.le_of_mul_le_mul_left (a := (spacing number : ℤ)) _ (by omega)
    omega
  have lower : -1 ≤ firstSignificand - secondSignificand := by
    apply Int.le_of_mul_le_mul_left (a := (spacing number : ℤ)) _ (by omega)
    omega
  have evenOf : ∀ significand : ℤ,
      (2 * spacing number : ℤ) ∣ spacing number * significand → 2 ∣ significand := by
    intro significand divides
    rw [Int.mul_comm 2] at divides
    exact Int.dvd_of_mul_dvd_mul_left (by omega) divides
  by_cases same : firstSignificand = secondSignificand
  · rw [same]
  · have neighbours : firstSignificand - secondSignificand = 1 ∨
        firstSignificand - secondSignificand = -1 := by omega
    have firstTie := evenOf _ (firstEven (by rcases neighbours with is | is <;>
      rw [is] at apart <;> omega))
    have secondTie := evenOf _ (secondEven (by rcases neighbours with is | is <;>
      rw [is] at apart <;> omega))
    omega

end Nearest

/-- Up to `2 ^ 53` every integer is a double. -/
theorem spacing_dvd_self {number : ℕ} (small : number ≤ 2 ^ 53) : spacing number ∣ number := by
  simp only [spacing, Int.natAbs_natCast]
  rcases Nat.lt_or_eq_of_le small with less | rfl
  · by_cases zero : number = 0
    · simp [zero]
    · have bits := (Nat.log2_lt zero).mpr less
      simp [show number.log2 - 52 = 0 by omega]
  · decide

theorem nearest_roundNat (number : ℕ) : Nearest number (roundNat number) := by
  have positive := spacing_pos number
  have unit : 2 ^ (number.log2 - 52) = spacing number := rfl
  unfold roundNat
  split
  · rename_i small
    exact ⟨Int.natCast_dvd_natCast.mpr (spacing_dvd_self small), by omega, by omega⟩
  · simp only [unit]
    have whole := Nat.div_add_mod number (spacing number)
    have remainder := Nat.mod_lt number positive
    have comm := Nat.mul_comm (spacing number) (number / spacing number)
    have succ : (number / spacing number + 1) * spacing number = _ := Nat.succ_mul ..
    split
    · refine ⟨⟨number / spacing number, by push_cast; exact Int.mul_comm ..⟩, by omega, ?_⟩
      intro tie
      have even : 2 ∣ number / spacing number := by omega
      rw [Nat.mul_comm]
      exact_mod_cast Nat.mul_comm _ 2 ▸ Nat.mul_dvd_mul_left _ even
    · refine ⟨⟨number / spacing number + 1, by push_cast; exact Int.mul_comm ..⟩, by omega, ?_⟩
      intro tie
      have even : 2 ∣ number / spacing number + 1 := by omega
      rw [Nat.mul_comm]
      exact_mod_cast Nat.mul_comm _ 2 ▸ Nat.mul_dvd_mul_left _ even

/-- Rounding gives the nearest double, and nothing else does. -/
theorem roundInt_eq_iff {number result : ℤ} :
    roundInt number = result ↔ Nearest number result := by
  have nearest : Nearest number (roundInt number) := by
    have magnitude := nearest_roundNat number.natAbs
    simp only [roundInt]
    split
    · rename_i negative
      have opposite := magnitude.neg
      rw [show -(number.natAbs : ℤ) = number by omega] at opposite
      exact opposite
    · rename_i nonneg
      rw [show (number.natAbs : ℤ) = number by omega] at magnitude
      exact magnitude
  constructor
  · rintro rfl
    exact nearest
  · exact nearest.unique

theorem roundInt_neg (number : ℤ) : roundInt (-number) = -roundInt number :=
  roundInt_eq_iff.mpr (roundInt_eq_iff.mp rfl).neg

theorem roundInt_roundInt (number : ℤ) : roundInt (roundInt number) = roundInt number := by
  have twice := roundInt_neg_roundInt number
  rw [roundInt_neg, Int.neg_inj] at twice
  exact twice

/-- The integers that are doubles are those on the grid. -/
theorem roundInt_eq_self_iff {number : ℤ} :
    roundInt number = number ↔ (spacing number : ℤ) ∣ number := by
  rw [roundInt_eq_iff]
  constructor
  · intro nearest
    exact nearest.grid
  · intro onGrid
    have positive := spacing_pos number
    exact ⟨onGrid, by simp, by omega⟩

section Grid

variable {number bound : ℤ} (onGrid : (spacing number : ℤ) ∣ bound)

include onGrid

/-- Rounding does not cross a double on the grid of the number. -/
theorem roundInt_le_of_dvd (le : number ≤ bound) : roundInt number ≤ bound := by
  have nearest := roundInt_eq_iff.mp (rfl : roundInt number = roundInt number)
  have near := nearest.near
  rcases Int.dvd_sub nearest.grid onGrid with ⟨steps, apart⟩
  by_contra beyond
  have positive : 0 < steps := by
    apply Int.pos_of_mul_pos_right (a := (spacing number : ℤ)) _ (by omega)
    omega
  have oneStep := Int.mul_le_mul_of_nonneg_left (show 1 ≤ steps by omega)
    (Int.natCast_nonneg (spacing number))
  omega

theorem le_roundInt_of_dvd (le : bound ≤ number) : bound ≤ roundInt number := by
  have opposite := roundInt_neg number
  have below : roundInt (-number) ≤ -bound := by
    apply roundInt_le_of_dvd _ (by omega)
    rw [spacing_neg]
    exact Int.dvd_neg.mpr onGrid
  omega

end Grid

theorem roundInt_pos {number : ℤ} (positive : 0 < number) : 0 < roundInt number := by
  have fits : (spacing number : ℤ) ≤ number := by
    have power : spacing number ≤ 2 ^ number.natAbs.log2 :=
      Nat.pow_le_pow_right (by decide) (Nat.sub_le _ _)
    have whole := Nat.log2_self_le (show number.natAbs ≠ 0 by omega)
    omega
  have reached := le_roundInt_of_dvd (Int.dvd_refl _) fits
  have := spacing_pos number
  omega

theorem roundInt_le {number bound : ℤ} (nonneg : 0 ≤ number) (le : number ≤ bound)
    (exact : roundInt bound = bound) : roundInt number ≤ bound := by
  apply roundInt_le_of_dvd _ le
  exact Int.dvd_trans (Int.natCast_dvd_natCast.mpr (spacing_dvd nonneg le))
    (roundInt_eq_iff.mp exact).grid

/-- The rounding errors of both operands are lost in the spacing of the doubles at their
difference, which is a double itself. -/
structure ExactSub (left right : ℤ) : Prop where
  grid : (spacing (roundInt left - roundInt right) : ℤ) ∣ left - right
  near : 2 * (error left - error right).natAbs ≤ spacing (roundInt left - roundInt right)
  even : 2 * (error left - error right).natAbs = spacing (roundInt left - roundInt right) →
    (2 * spacing (roundInt left - roundInt right) : ℤ) ∣ left - right

/-- A subtraction of doubles gives the difference of two integers exactly when rounding them
first does no harm. -/
theorem roundInt_sub_eq_iff {left right : ℤ} :
    roundInt (roundInt left - roundInt right) = left - right ↔ ExactSub left right := by
  have distance : (left - right - (roundInt left - roundInt right)).natAbs =
      (error left - error right).natAbs := by
    simp only [error]
    omega
  rw [roundInt_eq_iff]
  constructor
  · rintro ⟨grid, near, even⟩
    rw [distance] at near even
    exact ⟨grid, near, even⟩
  · rintro ⟨grid, near, even⟩
    rw [← distance] at near even
    exact ⟨grid, near, even⟩

theorem exactSub_of_le {left right : ℤ} (leftLower : 0 ≤ left) (leftUpper : left ≤ 2 ^ 53)
    (rightLower : 0 ≤ right) (rightUpper : right ≤ 2 ^ 53) : ExactSub left right := by
  apply roundInt_sub_eq_iff.mp
  rw [roundInt_eq_self (by omega) leftUpper, roundInt_eq_self (by omega) rightUpper,
    roundInt_eq_self (by omega) (by omega)]

end Double
