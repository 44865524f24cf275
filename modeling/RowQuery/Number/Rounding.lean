/-!
# Rounding

The nearest whole number to a quotient of naturals, a tie going to the even neighbour. Main
statement: the result is within half a unit of the quotient.
-/

set_option autoImplicit false

namespace RowQuery

/-- The whole number nearest to `n / d`, the even one of two. -/
def roundHalfEven (n d : Nat) : Nat :=
  let q := n / d
  let r := n % d
  if 2 * r < d then q
  else if d < 2 * r then q + 1
  else if q % 2 = 0 then q else q + 1

/-- Rounding moves the quotient by half a unit at most. -/
theorem roundHalfEven_within {n d : Nat} (hd : 0 < d) :
    2 * n ≤ (2 * roundHalfEven n d + 1) * d ∧ 2 * roundHalfEven n d * d ≤ 2 * n + d := by
  have h := Nat.div_add_mod n d
  have hr := Nat.mod_lt n hd
  have e : ∀ k, (2 * k + 1) * d = 2 * (d * k) + d ∧ 2 * k * d = 2 * (d * k) := fun k =>
    ⟨by rw [Nat.add_mul, Nat.mul_assoc, Nat.mul_comm k]; omega,
      by rw [Nat.mul_assoc, Nat.mul_comm k]⟩
  have s : d * (n / d + 1) = d * (n / d) + d := Nat.mul_add_one ..
  unfold roundHalfEven
  rw [(e _).1, (e _).2]
  dsimp only
  split
  · omega
  · split
    · rw [s]; omega
    · split
      · omega
      · rw [s]; omega

/-- A quotient that is whole is left as it is. -/
theorem roundHalfEven_mul {n d : Nat} (hd : 0 < d) : roundHalfEven (n * d) d = n := by
  simp [roundHalfEven, Nat.mul_div_cancel n hd, hd]

end RowQuery
