import Mathlib.Tactic.Linarith
import RowQuery.Proofs.Json.Grammar
import RowQuery.Proofs.Number.Rank

/-!
# Fixed notation

The exact value of a finite double precision number, and what its fixed notation says of it: a number of the
JSON grammar with two digits after the point, at most half a hundredth away, for zeros of either sign,
subnormal numbers and the largest ones alike.
-/

namespace RowQuery.Binary64

open Json (Numeral)

set_option autoImplicit false

theorem unitsPerOne_pos : 0 < unitsPerOne :=
  Nat.lt_of_lt_of_eq (Nat.two_pow_pos _) unitsPerOne_eq.symm

/-- The exact value of a finite number. It is zero for the other numbers, which have none. -/
def exact (x : Binary64) : ℚ := ((x.units?.getD 0 : ℤ) : ℚ) / unitsPerOne

/-- A quotient that is rounded to hundredths moves by half a hundredth at most. -/
theorem abs_roundHalfEven_sub_le (n : Nat) {d : Nat} (hd : 0 < d) :
    |(roundHalfEven (n * 100) d : ℚ) / 100 - n / d| ≤ 1 / 200 := by
  obtain ⟨hlow, hhigh⟩ := roundHalfEven_within (n := n * 100) hd
  have hlow : (2 * (n * 100) : ℚ) ≤ (2 * roundHalfEven (n * 100) d + 1) * d := by exact_mod_cast hlow
  have hhigh : (2 * roundHalfEven (n * 100) d * d : ℚ) ≤ 2 * (n * 100) + d := by exact_mod_cast hhigh
  have hpos : (0 : ℚ) < d := Nat.cast_pos.2 hd
  have hbelow : (n : ℚ) / d ≤ roundHalfEven (n * 100) d / 100 + 1 / 200 := by
    rw [div_le_iff₀ hpos]
    linarith
  have habove : roundHalfEven (n * 100) d / 100 - 1 / 200 ≤ (n : ℚ) / d := by
    rw [le_div_iff₀ hpos]
    linarith
  exact abs_le.2 ⟨by linarith, by linarith⟩

theorem exact_finite (negative : Bool) (rank : Fin finiteRanks) :
    exact (finite negative rank) =
      (if negative then -1 else 1) * ((unitsOfRank rank : ℚ) / unitsPerOne) := by
  have hunits : (finite negative rank).units?.getD 0 =
      if negative then -(unitsOfRank rank : ℤ) else (unitsOfRank rank : ℤ) := rfl
  rw [exact, hunits]
  cases negative
  · rw [if_neg Bool.false_ne_true, if_neg Bool.false_ne_true, Int.cast_natCast, one_mul]
  · rw [if_pos rfl, if_pos rfl, Int.cast_neg, Int.cast_natCast, neg_div, neg_one_mul]

/-- In fixed notation a finite number is a number text with two places. -/
theorem exists_numeral_toFixed {x : Binary64} (hx : x.isFinite = true) :
    ∃ m : Numeral, x.toFixed = m.text ∧ m.fraction.length = 2 ∧ m.exponent = none ∧
      |m.value - x.exact| ≤ 1 / 200 := by
  cases x with
  | undefined | infinite => cases hx
  | finite negative rank =>
    let n := roundHalfEven (unitsOfRank rank * 100) unitsPerOne
    refine ⟨.ofHundredths negative n, (Numeral.text_ofHundredths negative n).symm,
      Numeral.length_twoDigits (Nat.mod_lt n (by decide)), rfl, ?_⟩
    have hsign : |(if negative then -1 else 1 : ℚ)| = 1 := by cases negative <;> simp
    rw [Numeral.value_ofHundredths, exact_finite, ← mul_sub, abs_mul, hsign, one_mul]
    exact abs_roundHalfEven_sub_le _ unitsPerOne_pos

end RowQuery.Binary64
