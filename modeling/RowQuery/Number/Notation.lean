import RowQuery.Number.Decimal
import RowQuery.Text.Basic

/-!
# Number text

How double precision numbers are written. The natural form is the shortest decimal that reads back,
always with a point or an exponent; the fixed form has two places, ties to even on the exact value.
-/

set_option autoImplicit false

namespace RowQuery.Binary64

def minus (negative : Bool) : Text := if negative then Text.ofString "-" else []

/-- The digits of a decimal as a text, and the place of the point counted from their start. -/
def pointed (d : Decimal) : Text × Int :=
  let digits := Text.ofNat d.digits
  (digits, digits.length + d.exponent)

/-- An exponent: its sign and at least two digits. -/
def exponentText (e : Int) : Text :=
  .scalar 'e' :: (.scalar (if e < 0 then '-' else '+')) ::
    Text.padStart 2 (.scalar '0') (Text.ofNat e.natAbs)

/-- A positive decimal, positional when the power of its first digit is from `-4` to `15`. -/
def decimalText (d : Decimal) : Text :=
  let (digits, point) := pointed d
  if point - 1 < -4 ∨ 16 ≤ point - 1 then
    let mantissa := match digits with
      | first :: [] => [first]
      | first :: rest => first :: .scalar '.' :: rest
      | [] => []
    mantissa ++ exponentText (point - 1)
  else if point ≤ 0 then
    Text.ofString "0." ++ List.replicate (-point).toNat (.scalar '0') ++ digits
  else if digits.length ≤ point then
    digits ++ List.replicate (point.toNat - digits.length) (.scalar '0') ++ Text.ofString ".0"
  else digits.take point.toNat ++ [.scalar '.'] ++ digits.drop point.toNat

def toText : Binary64 → Text
  | undefined _ => Text.ofString "nan"
  | infinite negative => minus negative ++ Text.ofString "inf"
  | finite negative rank =>
    minus negative ++
      if rank.val = 0 then Text.ofString "0.0" else decimalText (Decimal.shortest rank)

def hundredths (n : Nat) : Text :=
  Text.ofNat (n / 100) ++ [.scalar '.'] ++ Text.padStart 2 (.scalar '0') (Text.ofNat (n % 100))

def toFixed : Binary64 → Text
  | undefined _ => Text.ofString "nan"
  | infinite negative => minus negative ++ Text.ofString "inf"
  | finite negative rank =>
    minus negative ++ hundredths (roundHalfEven (unitsOfRank rank * 100) unitsPerOne)

end RowQuery.Binary64
