import Mathlib.Algebra.Group.Nat.Defs
import RowQuery.Number.Binary64

/-!
# Ranks of quotients

The nearest rank of a quotient depends on the quotient alone, whatever fraction is given for it, and
a number of units that has a rank is not rounded.
-/

namespace RowQuery

set_option autoImplicit false

/-- Rounding sees the quotient, not the fraction. -/
theorem roundHalfEven_scale (n d : Nat) {k : Nat} (hk : 0 < k) :
    roundHalfEven (n * k) (d * k) = roundHalfEven n d := by
  have hq : n * k / (d * k) = n / d := Nat.mul_div_mul_right n d hk
  have hr : n * k % (d * k) = n % d * k := Nat.mul_mod_mul_right k n d
  have hlt : ∀ a b : Nat, 2 * (a * k) < b * k ↔ 2 * a < b := fun a b => by
    rw [← Nat.mul_assoc, Nat.mul_lt_mul_right hk]
  have hgt : ∀ a b : Nat, b * k < 2 * (a * k) ↔ b < 2 * a := fun a b => by
    rw [← Nat.mul_assoc, Nat.mul_lt_mul_right hk]
  simp only [roundHalfEven, hq, hr, hlt, hgt]

namespace Binary64

theorem unitsOfRank_eq (rank : Nat) :
    unitsOfRank rank = if rank / 2 ^ 52 = 0 then rank
      else (2 ^ 52 + rank % 2 ^ 52) * 2 ^ (rank / 2 ^ 52 - 1) := by
  simp only [unitsOfRank, Nat.pow_eq]

theorem finiteRanks_eq : finiteRanks = 2047 * 2 ^ 52 := by
  simp only [finiteRanks, Nat.pow_eq]

theorem unitsPerOne_eq : unitsPerOne = 2 ^ 1074 := by
  have hpow : ∀ e, Nat.pow 2 e = 2 ^ e := fun _ => Nat.pow_eq
  delta unitsPerOne
  rw [hpow 1074]

/-- A quotient may be cancelled. -/
theorem rankOfUnits_scale (n d : Nat) {k : Nat} (hk : 0 < k) :
    rankOfUnits (n * k) (d * k) = rankOfUnits n d := by
  have hd : ∀ e : Nat, d * k * e = d * e * k := fun e => Nat.mul_right_comm d k e
  simp only [rankOfUnits, Nat.mul_div_mul_right n d hk, hd, roundHalfEven_scale n _ hk]

/-- The same quotient has the same nearest number. -/
theorem ofRatio_scale (negative : Bool) (n d : Nat) {k : Nat} (hk : 0 < k) :
    ofRatio negative (n * k) (d * k) = ofRatio negative n d := by
  simp only [ofRatio, Nat.mul_right_comm n k unitsPerOne, rankOfUnits_scale _ d hk]

/-- How many doublings of the spacing lie below a number of units that has a rank. -/
theorem log2_scaled {m e : Nat} (hlow : 2 ^ 52 ≤ m) (hhigh : m < 2 ^ 53) :
    (m * 2 ^ e).log2 = 52 + e := by
  have hm : m * 2 ^ e ≠ 0 :=
    Nat.ne_of_gt (Nat.mul_pos (Nat.lt_of_lt_of_le (Nat.two_pow_pos 52) hlow) (Nat.two_pow_pos e))
  rw [Nat.log2_eq_iff hm, Nat.pow_add, Nat.add_right_comm, Nat.pow_add]
  exact ⟨Nat.mul_le_mul_right _ hlow, Nat.mul_lt_mul_of_pos_right hhigh (Nat.two_pow_pos e)⟩

/-- A number of units with a rank has that rank. -/
theorem rankOfUnits_unitsOfRank (rank : Nat) : rankOfUnits (unitsOfRank rank) 1 = rank := by
  have hsplit := Nat.div_add_mod rank (2 ^ 52)
  have hmod := Nat.mod_lt rank (Nat.two_pow_pos 52)
  rw [unitsOfRank_eq]
  simp only [rankOfUnits, Nat.div_one, Nat.one_mul, Nat.pow_eq]
  split
  · next he =>
    have hlog : rank.log2 - 52 = 0 := by
      by_cases h0 : rank = 0
      · rw [h0]; rfl
      · have : rank.log2 < 52 := (Nat.log2_lt h0).2 (by omega)
        omega
    rw [hlog, Nat.zero_mul, Nat.zero_add, Nat.pow_zero]
    exact (congrArg (roundHalfEven · 1) (Nat.mul_one rank)).symm.trans
      (roundHalfEven_mul Nat.one_pos)
  · next he =>
    have hlog :
        ((2 ^ 52 + rank % 2 ^ 52) * 2 ^ (rank / 2 ^ 52 - 1)).log2 - 52 = rank / 2 ^ 52 - 1 := by
      rw [log2_scaled (by omega) (by omega)]
      omega
    rw [hlog, roundHalfEven_mul (Nat.two_pow_pos _)]
    omega

end Binary64

end RowQuery
