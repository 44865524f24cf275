import RowQuery.Proofs.Number.Fixed

/-!
# The range of double precision

Which integers have a finite nearest double precision number: those below the midpoint between the largest
one and `2 ^ 1024`. A finite number is compared with a bound by its exact value.
-/

namespace RowQuery

set_option autoImplicit false

/-- Halfway between two whole numbers the even one is taken. -/
theorem roundHalfEven_tie {n d q : Nat} (hd : 0 < d) (h : 2 * n = 2 * (q * d) + d) :
    roundHalfEven n d = if q % 2 = 0 then q else q + 1 := by
  have hq : n / d = q := by
    refine Nat.div_eq_of_lt_le (by omega) ?_
    rw [Nat.add_mul]
    omega
  have hsplit := Nat.div_add_mod n d
  rw [hq, Nat.mul_comm] at hsplit
  unfold roundHalfEven
  rw [hq, if_neg (by omega), if_neg (by omega)]

/-- A quotient is rounded to less than an even number if it is less than half below that number; half below
goes to the even number. -/
theorem roundHalfEven_lt_iff (n : Nat) {d m : Nat} (hd : 0 < d) (hm : m % 2 = 0) :
    roundHalfEven n d < m ↔ 2 * n + d < 2 * (m * d) := by
  obtain ⟨hlow, hhigh⟩ := roundHalfEven_within (n := n) hd
  rw [Nat.add_mul, Nat.mul_assoc, Nat.one_mul] at hlow
  rw [Nat.mul_assoc] at hhigh
  constructor
  · intro h
    have hbelow : roundHalfEven n d * d + d ≤ m * d := Nat.add_one_mul _ d ▸ Nat.mul_le_mul_right d h
    refine Nat.lt_of_le_of_ne (by omega) fun htie => ?_
    have hpred : (m - 1) * d + d = m * d := by
      rw [← Nat.add_one_mul, Nat.sub_add_cancel (by omega)]
    rw [roundHalfEven_tie (q := m - 1) hd (by omega), if_neg (by omega)] at h
    omega
  · intro h
    have hlt : roundHalfEven n d * d < m * d := by omega
    exact Nat.lt_of_mul_lt_mul_right hlt

namespace Binary64

/-- The ranks below the end of a binade are those of the numbers that are rounded to less than that end. -/
theorem rankOfUnits_lt_iff (n e : Nat) :
    rankOfUnits n 1 < (e + 2) * 2 ^ 52 ↔ 2 * n + 2 ^ e < 2 ^ 54 * 2 ^ e := by
  have hrank : rankOfUnits n 1 = (n.log2 - 52) * 2 ^ 52 + roundHalfEven n (2 ^ (n.log2 - 52)) := by
    simp only [rankOfUnits, Nat.div_one, Nat.one_mul, Nat.pow_eq]
  have hsize : n < 2 ^ 53 * 2 ^ (n.log2 - 52) := by
    rw [← Nat.pow_add]
    exact Nat.lt_of_lt_of_le Nat.lt_log2_self (Nat.pow_le_pow_right (by decide) (by omega))
  have hfull : n.log2 - 52 ≠ 0 → 2 ^ 52 * 2 ^ (n.log2 - 52) ≤ n := by
    intro hk
    have hne : n ≠ 0 := by
      rintro rfl
      exact hk rfl
    rw [← Nat.pow_add, Nat.add_sub_cancel' (by omega)]
    exact Nat.log2_self_le hne
  rw [hrank]
  generalize n.log2 - 52 = k at hsize hfull ⊢
  have hd : 0 < 2 ^ k := Nat.two_pow_pos k
  have hspacing : ∀ {i j : Nat}, i < j → 2 * 2 ^ i ≤ 2 ^ j := by
    intro i j h
    rw [← Nat.pow_add_one']
    exact Nat.pow_le_pow_right (by decide) h
  have hceil : roundHalfEven n (2 ^ k) ≤ 2 ^ 53 := by
    have hhigh := (roundHalfEven_within (n := n) hd).2
    have hlt : 2 * roundHalfEven n (2 ^ k) * 2 ^ k < (2 ^ 54 + 1) * 2 ^ k := by omega
    have := Nat.lt_of_mul_lt_mul_right hlt
    omega
  have hfloor : k ≠ 0 → 2 ^ 52 ≤ roundHalfEven n (2 ^ k) := by
    intro hk
    have hn := hfull hk
    refine Nat.le_of_not_lt fun h => ?_
    have := (roundHalfEven_lt_iff n hd (by decide)).1 h
    omega
  rcases Nat.lt_trichotomy k e with hk | rfl | hk
  · have := hspacing hk
    exact iff_of_true (by omega) (by omega)
  · have := roundHalfEven_lt_iff n (m := 2 ^ 53) hd (by decide)
    omega
  · have hn := hfull (by omega)
    have hr := hfloor (by omega)
    have := hspacing hk
    exact iff_of_false (by omega) (by omega)

/-- An integer has a finite nearest number if it is below the midpoint between the largest number and
`2 ^ 1024`. -/
theorem isFinite_ofInt_iff (n : Int) : (ofInt n).isFinite = true ↔ n.natAbs + 2 ^ 970 < 2 ^ 1024 := by
  have hranks : finiteRanks = (2045 + 2) * 2 ^ 52 := finiteRanks_eq
  have hfinite : (ofInt n).isFinite = true ↔ rankOfUnits (n.natAbs * unitsPerOne) 1 < finiteRanks := by
    unfold ofInt ofRatio
    dsimp only
    split
    · next h => exact iff_of_true rfl h
    · next h => exact iff_of_false Bool.false_ne_true h
  have hpow : ∀ {a b c : Nat}, c = a + (b + 1) → 2 ^ c = 2 ^ a * (2 * 2 ^ b) := by
    rintro a b c rfl
    rw [Nat.pow_add, Nat.pow_add_one']
  have hhalf : 2 ^ 2045 = 2 ^ 970 * (2 * 2 ^ 1074) := hpow rfl
  have hend : 2 ^ 54 * 2 ^ 2045 = 2 ^ 1024 * (2 * 2 ^ 1074) := by
    rw [← pow_add]
    exact hpow rfl
  have hunits : 2 * (n.natAbs * 2 ^ 1074) = n.natAbs * (2 * 2 ^ 1074) := Nat.mul_left_comm ..
  rw [hfinite, hranks, rankOfUnits_lt_iff, unitsPerOne_eq, hend, hhalf, hunits, ← Nat.add_mul]
  exact Nat.mul_lt_mul_right (Nat.mul_pos Nat.two_pos (pow_pos Nat.two_pos 1074))

/-! ## Bounds -/

theorem units?_of_isFinite {x : Binary64} (hx : x.isFinite = true) : x.units? = some (x.units?.getD 0) := by
  cases x with
  | undefined | infinite => cases hx
  | finite => rfl

/-- The check of a bound compares exact values. -/
theorem isWithin_iff {x : Binary64} (hx : x.isFinite = true) (bound : Nat) :
    x.isWithin bound = true ↔ |x.exact| ≤ bound := by
  have hpos : (0 : ℚ) < unitsPerOne := Nat.cast_pos.2 unitsPerOne_pos
  unfold isWithin exact
  rw [units?_of_isFinite hx]
  generalize x.units?.getD 0 = u
  rw [Option.getD_some, abs_div, abs_of_pos hpos, div_le_iff₀ hpos, decide_eq_true_iff, ← Int.cast_abs,
    Int.abs_eq_natAbs, Int.cast_natCast]
  exact_mod_cast Iff.rfl

theorem unitsOfRank_pos_iff (rank : Nat) : 0 < unitsOfRank rank ↔ rank ≠ 0 := by
  rw [unitsOfRank_eq]
  split
  · exact Nat.pos_iff_ne_zero
  · next h =>
    refine iff_of_true (Nat.mul_pos (by omega) (Nat.two_pow_pos _)) ?_
    rintro rfl
    exact h rfl

theorem isPositive_iff {x : Binary64} (hx : x.isFinite = true) : x.isPositive = true ↔ 0 < x.exact := by
  cases x with
  | undefined | infinite => cases hx
  | finite negative rank =>
    have hpos : (0 : ℚ) < unitsPerOne := Nat.cast_pos.2 unitsPerOne_pos
    have hrank : 0 < (unitsOfRank rank : ℚ) / unitsPerOne ↔ rank.val ≠ 0 := by
      rw [div_pos_iff_of_pos_right hpos, Nat.cast_pos, unitsOfRank_pos_iff]
    have hnonneg : 0 ≤ (unitsOfRank rank : ℚ) / unitsPerOne := div_nonneg (Nat.cast_nonneg _) hpos.le
    rw [exact_finite]
    generalize (unitsOfRank rank : ℚ) / unitsPerOne = q at hrank hnonneg
    cases negative with
    | false => simpa [isPositive] using hrank.symm
    | true => simpa [isPositive] using hnonneg

end Binary64

end RowQuery
