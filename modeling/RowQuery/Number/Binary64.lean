import RowQuery.Number.Rounding

/-!
# Double precision numbers

The numbers of the 64-bit binary format. A finite number is a sign and a rank: its place among the
non-negative finite numbers in increasing order. NaN is no quantity, so one NaN is told from another
only as an object. Every finite number is a whole multiple of the
smallest positive one, so comparison and arithmetic go through naturals, and a result is rounded
once, to the nearest number, ties to the even rank.
-/

set_option autoImplicit false

namespace RowQuery

/-- How many non-negative finite numbers there are. -/
def finiteRanks : Nat := 2047 * Nat.pow 2 52

inductive Binary64 where
  /-- NaN. One that may stand at several places has a number; one without stands at no other. -/
  | undefined (object : Option Nat)
  | infinite (negative : Bool)
  | finite (negative : Bool) (rank : Fin finiteRanks)
  deriving DecidableEq

namespace Binary64

/-- A NaN that stands at no other place. -/
def nan : Binary64 := undefined none

/-- The number, where it is NaN as one that stands at no other place. -/
def anonymous : Binary64 → Binary64
  | undefined _ => nan
  | x => x

/-- Whether the two are one NaN. -/
def isSameObject : Binary64 → Binary64 → Bool
  | undefined (some i), undefined (some j) => i == j
  | _, _ => false

/-- The smallest positive number is one over this. -/
def unitsPerOne : Nat := Nat.pow 2 1074

/-- The multiple of the smallest positive number that has a rank. The first `2 ^ 53` ranks are
spaced by one unit; after that the spacing doubles every `2 ^ 52` ranks. -/
def unitsOfRank (rank : Nat) : Nat :=
  if rank / Nat.pow 2 52 = 0 then rank
  else (Nat.pow 2 52 + rank % Nat.pow 2 52) * Nat.pow 2 (rank / Nat.pow 2 52 - 1)

/-- The rank nearest to `n / d` units. It reaches `finiteRanks` when the quotient is too large. -/
def rankOfUnits (n d : Nat) : Nat :=
  let doublings := (n / d).log2 - 52
  doublings * Nat.pow 2 52 + roundHalfEven n (d * Nat.pow 2 doublings)

/-- The number nearest to a quotient of naturals; infinite beyond the largest finite number. -/
def ofRatio (negative : Bool) (n d : Nat) : Binary64 :=
  let rank := rankOfUnits (n * unitsPerOne) d
  if h : rank < finiteRanks then finite negative ⟨rank, h⟩ else infinite negative

def zero : Binary64 := finite false ⟨0, by decide⟩

def ofInt (n : Int) : Binary64 := ofRatio (n < 0) n.natAbs 1

def isFinite : Binary64 → Bool
  | finite .. => true
  | _ => false

/-- The value of a finite number in units, with its sign. -/
def units? : Binary64 → Option Int
  | finite negative rank =>
    let u : Int := unitsOfRank rank
    some (if negative then -u else u)
  | _ => none

/-- The value, where it is whole. -/
def toInt? (x : Binary64) : Option Int :=
  x.units?.bind fun u => if u % (unitsPerOne : Int) = 0 then some (u / (unitsPerOne : Int)) else none

/-- Whether the two numbers are equal as quantities: the zeros are, and NaN differs from itself. -/
def sameQuantity : Binary64 → Binary64 → Bool
  | infinite a, infinite b => a == b
  | x@(finite ..), y@(finite ..) => x.units? == y.units?
  | _, _ => false

def isWithin (bound : Nat) (x : Binary64) : Bool :=
  match x.units? with
  | some u => u.natAbs ≤ bound * unitsPerOne
  | none => false

def isPositive : Binary64 → Bool
  | undefined _ => false
  | infinite negative => !negative
  | finite negative rank => !negative && rank.val != 0

/-- Zero of either sign. -/
def isZero : Binary64 → Bool
  | finite _ rank => rank.val == 0
  | _ => false

/-- A value in units, rounded. An exact zero is positive unless `zeroNegative` is set. -/
def ofUnits (zeroNegative : Bool) (u : Int) : Binary64 :=
  ofRatio (if u = 0 then zeroNegative else u < 0) u.natAbs unitsPerOne

/-- The difference, rounded once. -/
def sub : Binary64 → Binary64 → Binary64
  | infinite a, infinite b => if a = b then nan else infinite a
  | infinite a, finite .. => infinite a
  | finite .., infinite b => infinite !b
  | x@(finite a ra), y@(finite b _) =>
    ofUnits (a && !b && ra.val == 0) (x.units?.getD 0 - y.units?.getD 0)
  | _, _ => nan

/-- The product with a positive whole number, rounded once. -/
def times (factor : Nat) : Binary64 → Binary64
  | undefined _ => nan
  | infinite negative => infinite negative
  | finite negative rank => ofRatio negative (unitsOfRank rank * factor) unitsPerOne

end Binary64

end RowQuery
