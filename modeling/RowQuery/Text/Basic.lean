/-!
# Text

A text is a list of code points. Half of a surrogate pair may stand alone in it, since such halves
reach the library through escapes in JSON; a text without them is a list of characters, and only
such a text has a UTF-8 form.
-/

set_option autoImplicit false

namespace RowQuery

/-- A code point: a character, or a surrogate half with no partner. -/
inductive CodePoint where
  | scalar (c : Char)
  | lone (half : Fin 2048)
  deriving DecidableEq, Inhabited

namespace CodePoint

instance : Coe Char CodePoint := ⟨scalar⟩

/-- Surrogate halves take the numbers from `0xD800`. -/
def toNat : CodePoint → Nat
  | scalar c => c.toNat
  | lone half => 0xD800 + half.val

/-- The code point of a number; every number below `0x110000` has its own. -/
def ofNat (n : Nat) : CodePoint :=
  if 0xD800 ≤ n ∧ n ≤ 0xDFFF then lone (Fin.ofNat 2048 (n - 0xD800)) else scalar (Char.ofNat n)

/-- The value of a hexadecimal digit of either case. -/
def hexValue? (c : CodePoint) : Option Nat :=
  let n := c.toNat
  if 0x30 ≤ n ∧ n ≤ 0x39 then some (n - 0x30)
  else if 0x41 ≤ n ∧ n ≤ 0x46 then some (n - 0x37)
  else if 0x61 ≤ n ∧ n ≤ 0x66 then some (n - 0x57)
  else none

/-- Whether the code point is a character. -/
def isScalar : CodePoint → Bool
  | scalar _ => true
  | lone _ => false

end CodePoint

abbrev Text := List CodePoint

namespace Text

def ofChars (cs : List Char) : Text := cs.map .scalar

def ofString (s : String) : Text := ofChars s.toList

instance : Coe String Text := ⟨ofString⟩

/-- The characters of a text that holds no lone surrogate half. -/
def chars? : Text → Option (List Char)
  | [] => some []
  | .scalar c :: t => (chars? t).map (c :: ·)
  | .lone _ :: _ => none

/-- No surrogate half stands alone in the text. -/
def isWellFormed (t : Text) : Bool := t.all CodePoint.isScalar

/-- The pieces of a text between the occurrences of a separator; there is always at least one. -/
def split (separator : CodePoint) : Text → List Text
  | [] => [[]]
  | c :: t =>
    if c = separator then [] :: split separator t
    else match split separator t with
      | [] => [[c]]
      | piece :: pieces => (c :: piece) :: pieces

/-- Splits at the first occurrence of a separator, which neither part holds. -/
def splitFirst? (separator : CodePoint) : Text → Option (Text × Text)
  | [] => none
  | c :: t =>
    if c = separator then some ([], t)
    else (splitFirst? separator t).map fun p => (c :: p.1, p.2)

def join (separator : Text) (pieces : List Text) : Text := separator.intercalate pieces

def startsWith (t start : Text) : Bool := start.isPrefixOf t

/-- Drops the code points that satisfy `p` from the end. -/
def dropEndWhile (p : CodePoint → Bool) (t : Text) : Text :=
  t.foldr (fun c rest => if rest.isEmpty && p c then [] else c :: rest) []

/-- The decimal digits of a natural number, without leading zeros. -/
def ofNat (n : Nat) : Text := ofChars (Nat.toDigits 10 n)

/-- The decimal digits of an integer, after a minus sign when it is negative. -/
def ofInt : Int → Text
  | .ofNat n => ofNat n
  | .negSucc n => .scalar '-' :: ofNat (n + 1)

def padStart (width : Nat) (fill : CodePoint) (t : Text) : Text :=
  List.replicate (width - t.length) fill ++ t

def padEnd (width : Nat) (fill : CodePoint) (t : Text) : Text :=
  t ++ List.replicate (width - t.length) fill

/-- A number in base 16 with lower case digits, filled with zeros up to a width. -/
def ofHex (width n : Nat) : Text := padStart width (.scalar '0') (ofChars (Nat.toDigits 16 n))

theorem chars?_ofChars (cs : List Char) : chars? (ofChars cs) = some cs := by
  induction cs with
  | nil => rfl
  | cons c cs ih => simp [ofChars, chars?] at ih ⊢; exact ih

end Text

end RowQuery
