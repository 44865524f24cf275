import RowQuery.Number.Binary64

/-!
# Decimals

A decimal is a natural number times a power of ten. It has a nearest double precision number, and a
finite double precision number has a shortest decimal: of the decimals that read back as the number
those with the fewest digits, and of these the nearest. The search walks the digit counts upwards
and looks at the two neighbours of the number among the decimals of each count.
-/

set_option autoImplicit false

namespace RowQuery

structure Decimal where
  digits : Nat
  exponent : Int
  deriving DecidableEq

namespace Decimal

/-- How many decimal digits a natural number has; zero has none. -/
def length (n : Nat) : Nat := if n = 0 then 0 else (Nat.toDigits 10 n).length

def ratio (d : Decimal) : Nat × Nat :=
  (d.digits * Nat.pow 10 d.exponent.toNat, Nat.pow 10 (-d.exponent).toNat)

/-- The nearest number. Decimals beyond `10 ^ 310` are infinite and those below `10 ^ (-330)` are
zero, which is settled without building the power of ten. -/
def toBinary64 (negative : Bool) (d : Decimal) : Binary64 :=
  let size := d.exponent + length d.digits
  if d.digits = 0 ∨ size < -330 then Binary64.ofRatio negative 0 1
  else if 310 < size then .infinite negative
  else Binary64.ofRatio negative d.ratio.1 d.ratio.2

/-- The power of ten of the first digit of `n / d`, for a positive quotient. -/
def leadingPower (n d : Nat) : Int :=
  if d ≤ n then length (n / d) - 1
  else -(length ((d + n - 1) / n - 1) : Int)

/-- The decimals of `count` digits next to `n / d` that read back as `x`, nearer one first. -/
def candidates (x : Binary64) (n d count : Nat) : List Decimal :=
  let exponent := leadingPower n d - count + 1
  let scaled := n * Nat.pow 10 (-exponent).toNat
  let step := d * Nat.pow 10 exponent.toNat
  let below := scaled / step
  let rest := scaled % step
  let lower : Decimal := ⟨below, exponent⟩
  let upper : Decimal := ⟨below + 1, exponent⟩
  let byNearness :=
    if 2 * rest < step ∨ (2 * rest = step ∧ below % 2 = 0) then [lower, upper] else [upper, lower]
  byNearness.filter fun c => c.toBinary64 false = x

/-- The exact decimal of a number of units. -/
def ofUnits (u : Nat) : Decimal := ⟨u * Nat.pow 5 1074, -1074⟩

/-- Moves up to a number of zeros at the end of the digits into the exponent. -/
def stripZeros : Nat → Decimal → Decimal
  | 0, d => d
  | n + 1, d => if d.digits % 10 = 0 then stripZeros n ⟨d.digits / 10, d.exponent + 1⟩ else d

/-- Moves the zeros at the end of the digits into the exponent. -/
def strip (d : Decimal) : Decimal := stripZeros (length d.digits) d

/-- The shortest decimal that reads back as the positive number of a rank. Seventeen digits are
always enough; the exact decimal closes the search. -/
def shortest (rank : Fin finiteRanks) : Decimal :=
  let u := Binary64.unitsOfRank rank
  let found := (List.range 17).findSome? fun count =>
    (candidates (.finite false rank) u Binary64.unitsPerOne (count + 1)).head?
  strip (found.getD (ofUnits u))

end Decimal

end RowQuery
