import RowQuery.Number.Decimal
import RowQuery.Text.Blank

/-!
# Reading numbers

The texts that people may type for a number. Blanks around it are ignored, and an underscore may
stand between two digits. A double precision number may be typed in digits of any script; a whole
number takes ASCII digits, and a fraction if it is zero.
-/

set_option autoImplicit false

namespace RowQuery

namespace Decimal

/-- The decimal of the digits before the point, after it, and of an exponent. -/
def ofParts (whole fraction : List Char) (exponent : Int) : Decimal :=
  ⟨Nat.ofDigitChars 10 (whole ++ fraction) 0, exponent - fraction.length⟩

end Decimal

namespace Literal

/-- The ASCII characters of a typed number: digits of other scripts become ASCII digits and blanks
of other scripts become spaces. No other character outside ASCII is accepted. -/
def toAscii? (t : Text) : Option (List Char) :=
  t.mapM fun c =>
    if c.toNat < 0x80 then some (Char.ofNat c.toNat)
    else if c.isBlank then some ' '
    else c.digit?.map fun d => Char.ofNat (0x30 + d)

def isBlank (c : Char) : Bool := CodePoint.isAsciiBlank (.scalar c)

def trim (cs : List Char) : List Char :=
  ((cs.dropWhile isBlank).reverse.dropWhile isBlank).reverse

/-- Drops the underscores, each of which must stand between two digits. -/
def dropUnderscores? : Bool → List Char → Option (List Char)
  | _, [] => some []
  | afterDigit, '_' :: cs =>
    if afterDigit && (cs.head?.any Char.isDigit) then dropUnderscores? false cs else none
  | _, c :: cs => (dropUnderscores? c.isDigit cs).map (c :: ·)

/-- The sign of a number, if one is written, and the rest. -/
def sign : List Char → Bool × List Char
  | '-' :: cs => (true, cs)
  | '+' :: cs => (false, cs)
  | cs => (false, cs)

/-- The exponent that ends a number; none is zero. -/
def exponent? : List Char → Option Int
  | [] => some 0
  | c :: cs =>
    if c = 'e' ∨ c = 'E' then
      let (negative, digits) := sign cs
      if digits.isEmpty || !digits.all Char.isDigit then none
      else
        let n : Int := Nat.ofDigitChars 10 digits 0
        some (if negative then -n else n)
    else none

/-- A decimal number without its sign. At least one digit stands before or after the point. -/
def decimal? (cs : List Char) : Option Decimal :=
  let whole := cs.takeWhile Char.isDigit
  let rest := cs.dropWhile Char.isDigit
  let (fraction, rest) := match rest with
    | '.' :: tail => (tail.takeWhile Char.isDigit, tail.dropWhile Char.isDigit)
    | _ => ([], rest)
  if whole.isEmpty && fraction.isEmpty then none
  else (exponent? rest).map (Decimal.ofParts whole fraction)

/-- A double precision number, the words for infinity and NaN included. -/
def binary64? (t : Text) : Option Binary64 := do
  let cs ← dropUnderscores? false (trim (← toAscii? t))
  let (negative, body) := sign cs
  let word := String.ofList (body.map Char.toLower)
  if word = "inf" ∨ word = "infinity" then some (.infinite negative)
  else if word = "nan" then some .nan
  else (decimal? body).map (Decimal.toBinary64 negative)

/-- The digits of the longest integer that has a text. -/
def maxIntDigits : Nat := 4300

/-- The digits of a whole number in front of a fraction, where the fraction is zero or missing. -/
def wholePart? (cs : List Char) : Option (List Char) :=
  match cs.dropWhile (· ≠ '.') with
  | _ :: fraction => if fraction.all (· = '0') then some (cs.takeWhile (· ≠ '.')) else none
  | [] => some cs

/-- A whole number. Zeros in front do not count; what is left may have at most `maxIntDigits`
characters, a minus sign included. -/
def int? (t : Text) : Option Int := do
  let (negative, body) := sign (← (t.trimWhile CodePoint.isWhite).chars?)
  let digits ← dropUnderscores? false (← wholePart? body)
  let shown := digits.dropWhile (· = '0')
  let room := if negative then maxIntDigits - 1 else maxIntDigits
  if digits.isEmpty || !digits.all Char.isDigit || room < shown.length then none
  else
    let n : Int := Nat.ofDigitChars 10 shown 0
    some (if negative then -n else n)

end Literal

end RowQuery
