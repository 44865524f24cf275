import RowQuery.Number.Notation

/-!
# Numbers with a number of places

The magnitude of a finite double precision number with a chosen number of digits: in fixed notation,
in scientific notation, and in the general notation, which is the shorter-looking one of the two. Ties
go to even on the exact value.
-/

set_option autoImplicit false

namespace RowQuery.Binary64

/-- A whole number with a point before its last `places` digits. A point with nothing after it is
written only if asked for. -/
def withPoint (keepPoint : Bool) (places n : Nat) : Text :=
  Text.ofNat (n / Nat.pow 10 places) ++
    if places = 0 then (if keepPoint then [.scalar '.'] else [])
    else .scalar '.' :: Text.padStart places (.scalar '0') (Text.ofNat (n % Nat.pow 10 places))

/-- Drops the zeros at the end of a fraction, and the point if nothing else is left of it. -/
def dropFractionZeros (t : Text) : Text :=
  if t.contains (.scalar '.') then
    (t.dropEndWhile (· = .scalar '0')).dropEndWhile (· = .scalar '.')
  else t

/-- The magnitude with a number of places after the point. -/
def fixedText (keepPoint : Bool) (places : Nat) (rank : Fin finiteRanks) : Text :=
  withPoint keepPoint places (roundHalfEven (unitsOfRank rank * Nat.pow 10 places) unitsPerOne)

/-- The digits of the magnitude, one and `places` more, and the power of ten of the first. -/
def scientific (places : Nat) (rank : Fin finiteRanks) : Nat × Int :=
  if rank.val = 0 then (0, 0)
  else
    let u := unitsOfRank rank
    let power := Decimal.leadingPower u unitsPerOne
    let n := roundHalfEven (u * Nat.pow 10 ((places : Int) - power).toNat)
      (unitsPerOne * Nat.pow 10 (power - places).toNat)
    if n = Nat.pow 10 (places + 1) then (Nat.pow 10 places, power + 1) else (n, power)

/-- The magnitude in scientific notation. -/
def scientificText (keepPoint : Bool) (places : Nat) (rank : Fin finiteRanks) : Text :=
  let (n, power) := scientific places rank
  withPoint keepPoint places n ++ exponentText power

/-- The magnitude with a number of digits: positional where the power of the first digit is at least
`-4` and below the number of digits. -/
def generalText (keepZeros : Bool) (digits : Nat) (rank : Fin finiteRanks) : Text :=
  let places := digits - 1
  let (n, power) := scientific places rank
  let trim (t : Text) : Text := if keepZeros then t else dropFractionZeros t
  if -4 ≤ power ∧ power < digits then trim (fixedText keepZeros (places - power).toNat rank)
  else trim (withPoint keepZeros places n) ++ exponentText power

end RowQuery.Binary64
