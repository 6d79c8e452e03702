import Mathlib.Algebra.Order.Field.Power
import Mathlib.Algebra.Ring.Int.Parity
import Mathlib.Data.Int.Log
import Mathlib.Data.Rat.Floor
import Mathlib.Tactic.Linarith

-- Rounding to the nearest number of double precision, where the exponent is not bounded.
namespace Double

-- The distance between the numbers of double precision around `x`.
def ulp (x : ℚ) : ℚ :=
  2 ^ (Int.log 2 |x| - 52)

-- Halves are rounded to the even neighbour.
def roundHalfEven (x : ℚ) : ℤ :=
  if Int.fract x < 1 / 2 ∨ Int.fract x = 1 / 2 ∧ Even ⌊x⌋ then ⌊x⌋ else ⌊x⌋ + 1

def nearest (x : ℚ) : ℚ :=
  roundHalfEven (x / ulp x) * ulp x

variable {x : ℚ} {n : ℤ}

theorem le_roundHalfEven (hn : Even n) : n ≤ roundHalfEven x ↔ (n : ℚ) ≤ x + 1 / 2 := by
  have hx : ⌊x⌋ + Int.fract x = x := Int.floor_add_fract x
  unfold roundHalfEven
  split
  case isTrue h =>
    constructor
    case mp =>
      intro hle
      have hle : (n : ℚ) ≤ ⌊x⌋ := Int.cast_le.mpr hle
      linarith [Int.fract_nonneg x]
    case mpr =>
      intro hle
      rcases h with h | ⟨h, he⟩
      case inl =>
        have hlt : (n : ℚ) < (⌊x⌋ + 1 : ℤ) := by push_cast; linarith
        exact Int.lt_add_one_iff.mp <| Int.cast_lt.mp hlt
      case inr =>
        have hle : (n : ℚ) ≤ (⌊x⌋ + 1 : ℤ) := by push_cast; linarith
        -- The neighbour above is odd.
        have hne : n ≠ ⌊x⌋ + 1 := by rintro rfl; exact Int.not_even_iff_odd.mpr he.add_one hn
        exact Int.lt_add_one_iff.mp <| lt_of_le_of_ne (Int.cast_le.mp hle) hne
  case isFalse h =>
    have hf : 1 / 2 ≤ Int.fract x := not_lt.mp <| not_or.mp h |>.left
    constructor
    case mp =>
      intro hle
      have hle : (n : ℚ) ≤ (⌊x⌋ + 1 : ℤ) := Int.cast_le.mpr hle
      push_cast at hle
      linarith
    case mpr =>
      intro hle
      have hlt : (n : ℚ) < (⌊x⌋ + 1 + 1 : ℤ) := by push_cast; linarith [Int.fract_lt_one x]
      exact Int.lt_add_one_iff.mp <| Int.cast_lt.mp hlt

theorem ulp_pos : 0 < ulp x :=
  zpow_pos two_pos _

theorem ulp_le {k : ℤ} (hx : 0 < x) (h : x < 2 ^ k) : ulp x ≤ 2 ^ (k - 53) := by
  have hl : Int.log 2 x < k := (Int.lt_zpow_iff_log_lt one_lt_two hx).mp (by exact_mod_cast h)
  rw [ulp, abs_of_pos hx]
  exact zpow_le_zpow_right₀ one_le_two (by omega)

-- Below `2 ^ 52`, the numbers of double precision include the halves.
theorem exists_ulp (hx : 0 < x) (h : x < 2 ^ 52) : ∃ j : ℕ, ulp x * 2 ^ (j + 1) = 1 := by
  have hl : Int.log 2 x < 52 := (Int.lt_zpow_iff_log_lt one_lt_two hx).mp (by exact_mod_cast h)
  obtain ⟨j, hj⟩ := Int.eq_ofNat_of_zero_le (a := 51 - Int.log 2 x) (by omega)
  refine ⟨j, ?_⟩
  rw [ulp, abs_of_pos hx, ← zpow_natCast, ← zpow_add₀ two_ne_zero]
  rw [show Int.log 2 x - 52 + (j + 1 : ℕ) = 0 by push_cast; omega, zpow_zero]

theorem le_nearest (hx : 0 < x) (h : x < 2 ^ 52) : n ≤ nearest x ↔ n ≤ x + ulp x / 2 := by
  obtain ⟨j, hj⟩ := exists_ulp hx h
  have hu : 0 < ulp x := ulp_pos
  have heven : Even (n * 2 ^ (j + 1)) := (even_two.pow_of_ne_zero (Nat.succ_ne_zero j)).mul_left n
  have hn : (n : ℚ) = (n * 2 ^ (j + 1) : ℤ) * ulp x := by
    push_cast
    rw [mul_assoc, mul_comm (2 ^ (j + 1)), hj, mul_one]
  calc n ≤ nearest x
    _ ↔ (n * 2 ^ (j + 1) : ℤ) ≤ roundHalfEven (x / ulp x) := by
      rw [hn, nearest, mul_le_mul_iff_left₀ hu, Int.cast_le]
    _ ↔ ((n * 2 ^ (j + 1) : ℤ) : ℚ) ≤ x / ulp x + 1 / 2 := le_roundHalfEven heven
    _ ↔ (n * 2 ^ (j + 1) : ℤ) * ulp x ≤ (x / ulp x + 1 / 2) * ulp x :=
      (mul_le_mul_iff_left₀ hu).symm
    _ ↔ n ≤ x + ulp x / 2 := by
      rw [← hn, add_mul, div_mul_cancel₀ x hu.ne', one_div_mul_eq_div]

-- A number can only be rounded up to an integer if it is half a step away at most.
theorem floor_nearest (hx : 0 < x) (h : x < 2 ^ 52) : ⌊nearest x⌋ = ⌊x + ulp x / 2⌋ :=
  eq_of_forall_le_iff fun _ => by rw [Int.le_floor, Int.le_floor, le_nearest hx h]

example : ⌊nearest (253402300798999999 / 1000000)⌋ = 253402300799 := by decide +kernel

end Double
