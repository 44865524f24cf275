import RowQuery.Failure
import RowQuery.Number.Places
import RowQuery.Value.Key

/-!
# Message templates

A template is a text with directives, each of which starts with a percent sign and is replaced by a
value: `%` key, flags, width, precision and conversion. Values are taken in order from a tuple, or by
key from a mapping; any other value stands alone. All values must be used.
-/

set_option autoImplicit false

namespace RowQuery.Template

/-- A width or a precision: written out, or taken from the values. -/
inductive Amount where
  | written (n : Nat)
  | taken

structure Directive where
  /-- The key between parentheses; its inside is missing if they are not closed. -/
  key : Option (Option Text)
  flags : List Char
  width : Option Amount
  precision : Option Amount
  /-- The letter that ends the directive; missing at the end of the template. -/
  conversion : Option CodePoint
  /-- The place after the directive. -/
  index : Nat

inductive Piece where
  | literal (c : CodePoint)
  | directive (d : Directive)

/-- The key up to its closing parenthesis, where inner parentheses are balanced, and the rest. -/
def readKey (depth : Nat) : Text → Option (Text × Text)
  | [] => none
  | .scalar ')' :: t =>
    if depth = 0 then some ([], t)
    else (readKey (depth - 1) t).map fun p => (.scalar ')' :: p.1, p.2)
  | .scalar '(' :: t => (readKey (depth + 1) t).map fun p => (.scalar '(' :: p.1, p.2)
  | c :: t => (readKey depth t).map fun p => (c :: p.1, p.2)

def isFlag (c : CodePoint) : Bool := [CodePoint.scalar '-', '+', ' ', '#', '0'].contains c

def isDigit (c : CodePoint) : Bool := 0x30 ≤ c.toNat && c.toNat ≤ 0x39

/-- The number that digits write; none is zero. -/
def ofDigits (t : Text) : Nat := t.foldl (fun n c => n * 10 + (c.toNat - 0x30)) 0

/-- An amount at the start of a text, and the rest. -/
def readAmount (t : Text) : Option Amount × Text :=
  match t with
  | .scalar '*' :: t => (some .taken, t)
  | t =>
    let digits := t.takeWhile isDigit
    (if digits.isEmpty then none else some (.written (ofDigits digits)), t.dropWhile isDigit)

/-- The key between parentheses at the start of a text, if there is one, and the rest. -/
def readParenthesis (t : Text) : Option (Option Text) × Text :=
  match t with
  | .scalar '(' :: inner =>
    match readKey 0 inner with
    | some (key, rest) => (some (some key), rest)
    | none => (some none, [])
  | t => (none, t)

def readFlags (t : Text) : List Char × Text :=
  ((t.takeWhile isFlag).map fun c => Char.ofNat c.toNat, t.dropWhile isFlag)

/-- The precision behind a point at the start of a text, and the rest. A point alone stands for zero. -/
def readPrecision (t : Text) : Option Amount × Text :=
  match t with
  | .scalar '.' :: t => ((readAmount t).1.or (some (.written 0)), (readAmount t).2)
  | t => (none, t)

/-- Drops a letter for the size of a number. -/
def dropSize (t : Text) : Text :=
  match t with
  | .scalar 'h' :: t | .scalar 'l' :: t | .scalar 'L' :: t => t
  | t => t

/-- The directive after a percent sign, and the rest. -/
def readDirective (start : Nat) (t : Text) : Directive × Text :=
  let (key, afterKey) := readParenthesis t
  let (flags, afterFlags) := readFlags afterKey
  let (width, afterWidth) := readAmount afterFlags
  let (precision, afterPrecision) := readPrecision afterWidth
  let last := dropSize afterPrecision
  (⟨key, flags, width, precision, last.head?, start + (t.length - (last.drop 1).length)⟩,
    last.drop 1)

/-- The pieces of a template, after its first `index` code points; the next `skip` ones belong to a
piece before. -/
def pieces (index : Nat) : Nat → Text → List Piece
  | _, [] => []
  | skip + 1, _ :: t => pieces (index + 1) skip t
  | 0, .scalar '%' :: t =>
    if t.head? = some (.scalar '%') then .literal (.scalar '%') :: pieces (index + 1) 1 t
    else
      let (d, rest) := readDirective (index + 1) t
      .directive d :: pieces (index + 1) (t.length - rest.length) t
  | 0, c :: t => .literal c :: pieces (index + 1) 0 t

def fail {α : Type} (p : TemplateProblem) : Except Failure α := .error (.defect (.template p))

/-- How values are reached. -/
inductive Access where
  | inOrder
  | byKey (members : List (Value × Value))
  /-- By number only; with the name of what the numbers count. -/
  | byNumber (elements : Text)

/-- The values that are left. -/
structure Supply where
  left : List Value
  access : Access

/-- The supply of the values of a message. -/
def Supply.ofValue : Value → Supply
  | .tuple vs => ⟨vs, .inOrder⟩
  | v@(.mapping members) => ⟨[v], .byKey members⟩
  | v@(.list _) => ⟨[v], .byNumber "list"⟩
  | v@(.octets _) => ⟨[v], .byNumber "byte"⟩
  | v => ⟨[v], .inOrder⟩

def Supply.next (s : Supply) : Except Failure (Value × Supply) :=
  match s.left with
  | [] => fail .tooFewValues
  | v :: vs => .ok (v, { s with left := vs })

/-- Goes over to the value of a key. -/
def Supply.choose (s : Supply) (key : Option Text) : Except Failure Supply :=
  match s.access, key with
  | .inOrder, _ => fail .noMapping
  | _, none => fail .openKey
  | .byNumber elements, some _ => fail (.indexed elements)
  | .byKey members, some k =>
    match Value.lookup? members (.text k) with
    | some v => .ok { s with left := [v] }
    | none => fail (.missingKey k)

/-- Whether the values may end here: those that are reached in order must all be used. -/
def Supply.mayEnd (s : Supply) : Bool :=
  match s.access with
  | .inOrder => s.left.isEmpty
  | _ => true

/-- The whole number that a value is; a truth value is zero or one. -/
def int? : Value → Option Int
  | .int n => some n
  | .bool b => some (if b then 1 else 0)
  | _ => none

/-- An amount and what is left. -/
def Supply.amount (s : Supply) (part : AmountPart) :
    Option Amount → Except Failure (Option Int × Supply)
  | none => .ok (none, s)
  | some (.written n) =>
    if n < Nat.pow 2 part.bits then .ok (some n, s) else fail (.amountTooLarge part)
  | some .taken => do
    let (v, s) ← s.next
    match int? v with
    | some n =>
      if -(Nat.pow 2 part.bits : Int) ≤ n ∧ n < Nat.pow 2 part.bits then pure (some n, s)
      else fail (.amountOverflow part)
    | none => fail .badAmount

/-- A directive whose amounts are settled. A negative width turns the text to the left. -/
structure Layout where
  flags : List Char
  width : Int
  precision : Option Nat

namespace Layout

/-- The layout of a width and a precision. The least width has no opposite and counts as none; a
precision below zero is zero. -/
def make (flags : List Char) (width precision : Option Int) : Layout :=
  let width := width.getD 0
  ⟨flags, if width = -(Nat.pow 2 AmountPart.width.bits : Int) then 0 else width,
    precision.map Int.toNat⟩

def has (l : Layout) (flag : Char) : Bool := l.flags.contains flag

def isLeft (l : Layout) : Bool := l.has '-' || l.width < 0

/-- Fills a text with spaces up to the width. -/
def place (l : Layout) (t : Text) : Text :=
  if l.isLeft then t.padEnd l.width.natAbs (.scalar ' ')
  else t.padStart l.width.natAbs (.scalar ' ')

/-- A number from its sign, the mark of its base and its digits. -/
def placeNumber (l : Layout) (negative : Bool) (mark digits : Text) : Text :=
  let sign : Text :=
    if negative then ['-'] else if l.has '+' then ['+'] else if l.has ' ' then [' '] else []
  if l.has '0' && !l.isLeft then
    sign ++ mark ++ digits.padStart (l.width.natAbs - sign.length - mark.length) (.scalar '0')
  else l.place (sign ++ mark ++ digits)

end Layout

/-- A text cut to the precision. -/
def convertText (l : Layout) (t : Text) : Text :=
  l.place (l.precision.elim t t.take)

def truncate (c : CodePoint) : Value → Except Failure Int
  | .float (.undefined _) => fail .nanToInt
  | .float (.infinite _) => fail .infiniteToInt
  | .float (.finite negative rank) =>
    let n : Int := Binary64.unitsOfRank rank / Binary64.unitsPerOne
    .ok (if negative then -n else n)
  | v => (int? v).elim (fail (.notReal c v.typeName)) .ok

/-- The most digits that a precision may ask for. -/
def maxDigits : Nat := Nat.pow 2 31 - 4

def checkDigits (l : Layout) : Except Failure Unit :=
  if maxDigits < l.precision.getD 0 then fail .precisionTooLarge else .ok ()

def convertInt (l : Layout) (n : Int) : Except Failure Text := do
  checkDigits l
  match intText n.natAbs with
  | .error f => .error (.defect (.unrenderable f))
  | .ok digits =>
    .ok (l.placeNumber (n < 0) [] (digits.padStart (l.precision.getD 0) (.scalar '0')))

def toUpper (t : Text) : Text :=
  t.map fun c => if 0x61 ≤ c.toNat && c.toNat ≤ 0x7A then CodePoint.ofNat (c.toNat - 0x20) else c

def convertBase (l : Layout) (c : CodePoint) (n : Int) : Text :=
  let base := if c = .scalar 'o' then 8 else 16
  let digits := (Text.ofChars (Nat.toDigits base n.natAbs)).padStart (l.precision.getD 0) (.scalar '0')
  let mark : Text :=
    if !l.has '#' then [] else if base = 8 then Text.ofString "0o" else Text.ofString "0x"
  if c = .scalar 'X' then l.placeNumber (n < 0) (toUpper mark) (toUpper digits)
  else l.placeNumber (n < 0) mark digits

def toFloat (v : Value) : Except Failure Binary64 :=
  match v with
  | .float x => .ok x
  | v =>
    match int? v with
    | none => fail (.notFloat v.typeName)
    | some n =>
      if (Binary64.ofInt n).isFinite then .ok (Binary64.ofInt n) else .error (.defect .tooLarge)

def convertFloat (l : Layout) (c : CodePoint) (x : Binary64) : Text :=
  let lower := CodePoint.ofNat (c.toNat ||| 0x20)
  let precision := l.precision.getD 6
  let (negative, magnitude) : Bool × Text := match x with
    | .undefined _ => (false, Text.ofString "nan")
    | .infinite negative => (negative, Text.ofString "inf")
    | .finite negative rank =>
      (negative,
        if lower = .scalar 'f' then Binary64.fixedText (l.has '#') precision rank
        else if lower = .scalar 'e' then Binary64.scientificText (l.has '#') precision rank
        else Binary64.generalText (l.has '#') (max precision 1) rank)
  l.placeNumber negative [] (if lower = c then magnitude else toUpper magnitude)

/-- A code point, from its number or a text of one. -/
def convertCodePoint (l : Layout) (v : Value) : Except Failure Text :=
  match v.text?, int? v with
  | some [c], _ => .ok (l.place [c])
  | _, some n =>
    if 0 ≤ n ∧ n < 0x110000 then .ok (l.place [CodePoint.ofNat n.toNat])
    else fail .noSuchCodePoint
  | _, _ => fail .notCodePoint

/-- A text in ASCII, all else escaped by number. -/
def asciiOnly (t : Text) : Text :=
  t.flatMap fun c => if c.toNat < 0x80 then [c] else CodePoint.escapeByNumber c.toNat

/-- The text that a value takes in a directive. The place of a letter that is no conversion counts
from the start of the template. -/
def convert (l : Layout) (c : CodePoint) (index : Nat) (v : Value) : Except Failure Text :=
  match c with
  | .scalar 's' => v.displayed.map fun s => convertText l s.text
  | .scalar 'r' => v.inspected.map fun s => convertText l s.text
  | .scalar 'a' => v.inspected.map fun s => convertText l (asciiOnly s.text)
  | .scalar 'd' | .scalar 'i' | .scalar 'u' => truncate c v >>= convertInt l
  | .scalar 'x' | .scalar 'X' | .scalar 'o' => do
    let n ← (int? v).elim (fail (.notWhole c v.typeName)) .ok
    checkDigits l
    pure (convertBase l c n)
  | .scalar 'f' | .scalar 'F' | .scalar 'e' | .scalar 'E' | .scalar 'g' | .scalar 'G' =>
    (toFloat v).map (convertFloat l c)
  | .scalar 'c' => convertCodePoint l v
  | c => fail (.unknownConversion c index)

/-- The widest text that a directive can make. -/
def maxWidth : Nat := Nat.pow 2 40

/-- The text of a value in a directive that is not too wide. -/
def convertWithin (l : Layout) (c : CodePoint) (index : Nat) (v : Value) : Except Failure Text :=
  if l.width.natAbs ≤ maxWidth then convert l c index v
  else do
    let _ ← convert { l with width := 0 } c index v
    fail .tooWide

/-- The text of a directive, and what is left of the values. -/
def expand (d : Directive) (s : Supply) : Except Failure (Text × Supply) := do
  let s ← d.key.elim (.ok s) s.choose
  let (width, s) ← s.amount .width d.width
  let (precision, s) ← s.amount .precision d.precision
  match d.conversion with
  | none => fail .openDirective
  | some c =>
    let (v, s) ← s.next
    let t ← convertWithin (.make d.flags width precision) c (d.index - 1) v
    pure (t, s)

def fill : List Piece → Supply → Except Failure Text
  | [], s => if s.mayEnd then .ok [] else fail .tooManyValues
  | .literal c :: ps, s => (fill ps s).map (c :: ·)
  | .directive d :: ps, s => do
    let (t, s) ← expand d s
    let rest ← fill ps s
    pure (t ++ rest)

/-- The template with the values put in. -/
def interpolate (template : Text) (values : Value) : Except Failure Text :=
  fill (pieces 0 0 template) (Supply.ofValue values)

end RowQuery.Template
