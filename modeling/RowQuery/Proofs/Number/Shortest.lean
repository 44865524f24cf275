import Mathlib.Algebra.Group.Nat.Defs
import RowQuery.Number.Decimal
import RowQuery.Proofs.Number.Rank

/-!
# Shortest decimals

The nearest number of a decimal depends on the quantity alone, so zeros may move between the digits
and the exponent. Main statement: the shortest decimal of a positive number reads back as that
number.
-/

namespace RowQuery.Decimal

open Binary64 (ofRatio ofRatio_scale unitsOfRank unitsOfRank_eq unitsPerOne
  unitsPerOne_eq rankOfUnits_unitsOfRank)

set_option autoImplicit false

theorem length_le_iff (n k : Nat) : length n ≤ k ↔ n < 10 ^ k := by
  unfold length
  split
  · next h =>
    rw [h]
    exact ⟨fun _ => Nat.pow_pos (by decide), fun _ => Nat.zero_le k⟩
  · next h =>
    cases k with
    | zero =>
      have := Nat.length_toDigits_pos (b := 10) (n := n)
      omega
    | succ k => exact Nat.length_toDigits_le_iff (by decide) (Nat.succ_pos k)

theorem length_mul_pow {n : Nat} (hn : n ≠ 0) (k : Nat) : length (n * 10 ^ k) = length n + k := by
  have hle : ∀ m, length (n * 10 ^ k) ≤ m + k ↔ length n ≤ m := fun m => by
    rw [length_le_iff, length_le_iff, Nat.pow_add, Nat.mul_lt_mul_right (Nat.pow_pos (by decide))]
  have hpos : ¬ length n ≤ 0 := fun h => hn (by simpa using (length_le_iff n 0).1 h)
  have hlow := mt (hle (length n - 1)).1 (by omega)
  have hhigh := (hle (length n)).2 (Nat.le_refl _)
  omega

/-! ## The nearest number -/

/-- Zeros may move from the digits into the exponent. -/
theorem toBinary64_shift (negative : Bool) (n k : Nat) (e : Int) :
    toBinary64 negative ⟨n * 10 ^ k, e⟩ = toBinary64 negative ⟨n, e + k⟩ := by
  have hp : 10 ^ k ≠ 0 := Nat.ne_of_gt (Nat.pow_pos (by decide))
  by_cases hn : n = 0
  · simp [toBinary64, hn]
  · have hz : n * 10 ^ k ≠ 0 := Nat.mul_ne_zero hn hp
    have hsize : e + ((length (n * 10 ^ k) : Nat) : Int) = e + k + (length n : Nat) := by
      rw [length_mul_pow hn]
      omega
    -- The two quotients are the same one, by a power of ten above and below the line.
    obtain ⟨t, ha, hb⟩ : ∃ t, k + e.toNat = (e + k).toNat + t ∧ (-e).toNat = (-(e + k)).toNat + t :=
      ⟨k + e.toNat - (e + k).toNat, by omega, by omega⟩
    have hratio : ofRatio negative (n * 10 ^ k * 10 ^ e.toNat) (10 ^ (-e).toNat) =
        ofRatio negative (n * 10 ^ (e + k).toNat) (10 ^ (-(e + k)).toNat) := by
      rw [Nat.mul_assoc, ← Nat.pow_add, ha, hb, Nat.pow_add, Nat.pow_add, ← Nat.mul_assoc]
      exact ofRatio_scale _ _ _ (Nat.pow_pos (by decide))
    simp only [toBinary64, ratio, Nat.pow_eq, hsize, hz, hn, hratio]

theorem ofRatio_eq_finite {n d : Nat} {negative : Bool} {rank : Fin finiteRanks}
    (h : ofRatio negative n d = .finite negative rank) (negative' : Bool) :
    ofRatio negative' n d = .finite negative' rank := by
  simp only [ofRatio] at h ⊢
  split at h
  · next hlt =>
    cases h
    exact dif_pos hlt
  · cases h

/-- The sign of the nearest number is the one that is given. -/
theorem toBinary64_eq_finite {d : Decimal} {rank : Fin finiteRanks}
    (h : d.toBinary64 false = .finite false rank) (negative : Bool) :
    d.toBinary64 negative = .finite negative rank := by
  simp only [toBinary64] at h ⊢
  split at h
  · next hz =>
    rw [if_pos hz]
    exact ofRatio_eq_finite h negative
  · next hz =>
    rw [if_neg hz]
    split at h
    · cases h
    · next hs =>
      rw [if_neg hs]
      exact ofRatio_eq_finite h negative

theorem ofRatio_zero (negative : Bool) :
    ofRatio negative 0 1 = .finite negative ⟨0, by decide⟩ := by
  have h : Binary64.rankOfUnits (0 * unitsPerOne) 1 = 0 := by
    rw [Nat.zero_mul]
    exact rankOfUnits_unitsOfRank 0
  unfold ofRatio
  simp only [h]
  rfl

theorem digits_ne_zero {d : Decimal} {rank : Fin finiteRanks} (hr : rank.val ≠ 0)
    (h : d.toBinary64 false = .finite false rank) : d.digits ≠ 0 := by
  intro hd
  rw [toBinary64, if_pos (.inl hd), ofRatio_zero] at h
  cases h
  exact hr rfl

/-! ## The shortest decimal -/

/-- Zeros at the end of the digits make no difference to the number. -/
theorem toBinary64_stripZeros (negative : Bool) (n : Nat) (d : Decimal) :
    (stripZeros n d).toBinary64 negative = d.toBinary64 negative := by
  induction n generalizing d with
  | zero => rfl
  | succ n ih =>
    rw [stripZeros]
    split
    · next hz =>
      rw [ih, ← Int.natCast_one, ← toBinary64_shift negative (d.digits / 10) 1 d.exponent,
        Nat.pow_one, Nat.div_mul_cancel (Nat.dvd_of_mod_eq_zero hz)]
    · rfl

theorem unitsOfRank_pos {rank : Nat} (hr : rank ≠ 0) : 0 < unitsOfRank rank := by
  rw [unitsOfRank_eq]
  split
  · exact Nat.pos_of_ne_zero hr
  · exact Nat.mul_pos (by omega) (Nat.two_pow_pos _)

theorem unitsOfRank_lt {rank e : Nat} (he : rank / 2 ^ 52 - 1 ≤ e) :
    unitsOfRank rank < 2 ^ 53 * 2 ^ e := by
  have hmod := Nat.mod_lt rank (Nat.two_pow_pos 52)
  have hscale := Nat.mul_le_mul_left (2 ^ 53) (Nat.pow_le_pow_right (n := 2) (by decide) he)
  refine Nat.lt_of_lt_of_le ?_ hscale
  rw [unitsOfRank_eq]
  split
  · next h0 =>
    rw [h0]
    omega
  · exact Nat.mul_lt_mul_of_pos_right (by omega) (Nat.two_pow_pos _)

theorem ofUnits_eq (u : Nat) : ofUnits u = ⟨u * 5 ^ 1074, -1074⟩ := by
  have hpow : ∀ e, Nat.pow 5 e = 5 ^ e := fun _ => Nat.pow_eq
  rw [ofUnits, hpow 1074]

theorem ratio_eq (d : Decimal) :
    d.ratio = (d.digits * 10 ^ d.exponent.toNat, 10 ^ (-d.exponent).toNat) := by
  simp only [ratio, Nat.pow_eq]

/-- The exact decimal of a positive number is within the range that is not cut off. -/
theorem length_ofUnits {rank : Nat} (hpos : rank ≠ 0) (hr : rank < finiteRanks) :
    744 < length (unitsOfRank rank * 5 ^ 1074) ∧ length (unitsOfRank rank * 5 ^ 1074) ≤ 1384 := by
  constructor
  · refine Nat.lt_of_not_le fun h => ?_
    have hlow : (10 : Nat) ^ 744 ≤ 5 ^ 1074 := by decide +kernel
    have hle := Nat.le_mul_of_pos_left (5 ^ 1074) (unitsOfRank_pos hpos)
    rw [length_le_iff] at h
    exact absurd (Nat.le_trans hlow hle) (Nat.not_le.2 h)
  · have hhigh : (2 : Nat) ^ 53 * 2 ^ 2045 * 5 ^ 1074 ≤ 10 ^ 1384 := by decide +kernel
    have he : rank / 2 ^ 52 - 1 ≤ 2045 := by
      rw [Binary64.finiteRanks_eq] at hr
      omega
    have h5 : ∀ k : Nat, 0 < 5 ^ k := fun k => Nat.pow_pos (by decide)
    exact (length_le_iff _ _).2 (Nat.lt_of_lt_of_le
      (Nat.mul_lt_mul_of_pos_right (unitsOfRank_lt he) (h5 1074)) hhigh)

/-- A number of units as a decimal fraction over a power of ten. -/
theorem rankOfUnits_decimal (u k : Nat) :
    Binary64.rankOfUnits (u * 5 ^ k * 2 ^ k) (10 ^ k) = Binary64.rankOfUnits u 1 := by
  have h := Binary64.rankOfUnits_scale u 1 (k := 10 ^ k) (Nat.pow_pos (by decide))
  rwa [Nat.one_mul, show 10 ^ k = 5 ^ k * 2 ^ k from Nat.mul_pow 5 2 k, ← Nat.mul_assoc,
    ← Nat.mul_pow] at h

/-- The exact decimal of a number reads back as the number. -/
theorem toBinary64_ofUnits (rank : Fin finiteRanks) (hpos : rank.val ≠ 0) :
    (ofUnits (unitsOfRank rank)).toBinary64 false = .finite false rank := by
  obtain ⟨hlow, hhigh⟩ := length_ofUnits hpos rank.isLt
  have hdigits : unitsOfRank rank * 5 ^ 1074 ≠ 0 := fun h => by
    rw [h] at hlow
    exact absurd hlow (by decide)
  have hsize : ¬ (-1074 : Int) + (length (unitsOfRank rank * 5 ^ 1074) : Nat) < -330 ∧
      ¬ 310 < (-1074 : Int) + (length (unitsOfRank rank * 5 ^ 1074) : Nat) := by
    omega
  have hratio : ofRatio false (unitsOfRank rank * 5 ^ 1074 * 10 ^ 0) (10 ^ 1074) =
      .finite false rank := by
    have hrank := rankOfUnits_decimal (unitsOfRank rank) 1074
    rw [rankOfUnits_unitsOfRank] at hrank
    simp only [ofRatio, unitsPerOne_eq, Nat.pow_zero, Nat.mul_one, hrank]
    exact dif_pos rank.isLt
  rw [toBinary64, ofUnits_eq]
  dsimp only
  rw [if_neg (not_or.2 ⟨hdigits, hsize.1⟩), if_neg hsize.2]
  have hexponent : (-1074 : Int).toNat = 0 ∧ (-(-1074 : Int)).toNat = 1074 := ⟨rfl, rfl⟩
  simp only [ratio_eq, hexponent.1, hexponent.2]
  exact hratio

/-- The shortest decimal of a positive number reads back as the number. -/
theorem toBinary64_shortest (rank : Fin finiteRanks) (hpos : rank.val ≠ 0) (negative : Bool) :
    (shortest rank).toBinary64 negative = .finite negative rank := by
  refine toBinary64_eq_finite ?_ negative
  unfold shortest strip
  dsimp only
  rw [toBinary64_stripZeros]
  -- A candidate was read back before it was taken; without one the decimal is exact.
  cases hfound : (List.range 17).findSome? fun count =>
    (candidates (.finite false rank) (unitsOfRank rank) unitsPerOne (count + 1)).head? with
  | none => exact toBinary64_ofUnits rank hpos
  | some d =>
    obtain ⟨count, -, hhead⟩ := List.exists_of_findSome?_eq_some hfound
    have hmem := List.mem_of_head? hhead
    exact of_decide_eq_true (List.mem_filter.1 hmem).2

end RowQuery.Decimal
