import RowQuery.Json.Basic

/-!
# Reading JSON

The reader accepts JSON text and the words `NaN`, `Infinity` and `-Infinity`. Strings may hold no
control character. Of a repeated key the last member counts. A failure names its place: the reader
counts the code points that are left, and the place is settled at the top.
-/

set_option autoImplicit false

namespace RowQuery.Json

/-- What is wrong at a place of a JSON text. -/
inductive Problem where
  | expectingValue | expectingKey | expectingColon | expectingComma | unterminatedString
  | controlCharacter | badEscape | badUnicodeEscape | extraData | byteOrderMark
  deriving DecidableEq

namespace Problem

def message : Problem → Text
  | expectingValue => "Expecting value"
  | expectingKey => "Expecting property name enclosed in double quotes"
  | expectingColon => "Expecting ':' delimiter"
  | expectingComma => "Expecting ',' delimiter"
  | unterminatedString => "Unterminated string starting at"
  | controlCharacter => "Invalid control character at"
  | badEscape => "Invalid \\escape"
  | badUnicodeEscape => "Invalid \\uXXXX escape"
  | extraData => "Extra data"
  | byteOrderMark => "Unexpected UTF-8 BOM (decode using utf-8-sig)"

end Problem

inductive Stop where
  /-- A problem, and how many code points are left where it is. -/
  | problem (p : Problem) (left : Nat)
  /-- An integer of too many digits. -/
  | tooManyDigits (count : Nat)
  deriving DecidableEq

/-- A place in a text: line and column count from one, the offset from zero. -/
structure Place where
  line : Nat
  column : Nat
  offset : Nat
  deriving DecidableEq

inductive ReadError where
  | malformed (p : Problem) (place : Place)
  | tooManyDigits (count : Nat)
  deriving DecidableEq

namespace ReadError

def message : ReadError → Text
  | malformed p place =>
    p.message ++ Text.ofString ": line " ++ Text.ofNat place.line ++ Text.ofString " column " ++
      Text.ofNat place.column ++ Text.ofString " (char " ++ Text.ofNat place.offset ++ [.scalar ')']
  | tooManyDigits count =>
    Text.ofString "Exceeds the limit (4300 digits) for integer string conversion: value has " ++
      Text.ofNat count ++
      Text.ofString " digits; use sys.set_int_max_str_digits() to increase the limit"

end ReadError

/-- The place after the first `offset` code points. -/
def placeAt (t : Text) (offset : Nat) : Place :=
  let before := t.take offset
  let sinceBreak := (before.reverse.takeWhile (· ≠ .scalar '\n')).length
  ⟨before.count (.scalar '\n') + 1, sinceBreak + 1, offset⟩

def isBlank (c : CodePoint) : Bool :=
  c = .scalar ' ' || c = .scalar '\t' || c = .scalar '\n' || c = .scalar '\r'

def skipBlanks (t : Text) : Text := t.dropWhile isBlank

def hexUnit? (a b c d : CodePoint) : Option Nat := do
  pure ((((← a.hexValue?) * 16 + (← b.hexValue?)) * 16 + (← c.hexValue?)) * 16 + (← d.hexValue?))

/-- The code point of an escape by one letter. -/
def shortEscape? : CodePoint → Option CodePoint
  | .scalar '"' => some (.scalar '"')
  | .scalar '\\' => some (.scalar '\\')
  | .scalar '/' => some (.scalar '/')
  | .scalar 'b' => some (.scalar '\x08')
  | .scalar 'f' => some (.scalar '\x0c')
  | .scalar 'n' => some (.scalar '\n')
  | .scalar 'r' => some (.scalar '\r')
  | .scalar 't' => some (.scalar '\t')
  | _ => none

def isHighSurrogate (n : Nat) : Bool := 0xD800 ≤ n && n ≤ 0xDBFF

def isLowSurrogate (n : Nat) : Bool := 0xDC00 ≤ n && n ≤ 0xDFFF

/-- Puts code points in front of a string that is read. -/
def prepend (cs : Text) : Except Stop (Text × Text) → Except Stop (Text × Text) :=
  Except.map fun p => (cs ++ p.1, p.2)

/-- What an escape by number adds to a string while the high half of a pair may be pending: the code
points that are settled, and the half that is pending now. -/
def settleUnit (pending : Option Nat) (n : Nat) : Text × Option Nat :=
  let alone := (pending.map CodePoint.ofNat).toList
  match pending with
  | some h =>
    if isLowSurrogate n then
      ([CodePoint.ofNat (0x10000 + (h - 0xD800) * 0x400 + (n - 0xDC00))], none)
    else if isHighSurrogate n then (alone, some n)
    else (alone ++ [CodePoint.ofNat n], none)
  | none => if isHighSurrogate n then ([], some n) else ([CodePoint.ofNat n], none)

/-- Reads a string after its opening quote, where `opening` code points are left at that quote. An
escape by number needs a code point after it. Two escapes that form a surrogate pair are one code
point; a half without a partner stands alone. -/
def readString (opening : Nat) : Option Nat → Text → Except Stop (Text × Text)
  | _, [] => .error (.problem .unterminatedString opening)
  | pending, .scalar '"' :: t => .ok ((pending.map CodePoint.ofNat).toList, t)
  | _, [.scalar '\\'] => .error (.problem .unterminatedString opening)
  | pending, .scalar '\\' :: .scalar 'u' :: a :: b :: c :: d :: t =>
    match hexUnit? a b c d with
    | some n =>
      if t.isEmpty then .error (.problem .badUnicodeEscape (t.length + 5))
      else
        let settled := settleUnit pending n
        prepend settled.1 (readString opening settled.2 t)
    | none => .error (.problem .badUnicodeEscape (t.length + 5))
  | _, .scalar '\\' :: .scalar 'u' :: t => .error (.problem .badUnicodeEscape (t.length + 1))
  | pending, .scalar '\\' :: e :: t =>
    match shortEscape? e with
    | some c => prepend ((pending.map CodePoint.ofNat).toList ++ [c]) (readString opening none t)
    | none => .error (.problem .badEscape (t.length + 2))
  | pending, c :: t =>
    if c.toNat < 0x20 then .error (.problem .controlCharacter (t.length + 1))
    else prepend ((pending.map CodePoint.ofNat).toList ++ [c]) (readString opening none t)

def isDigit : CodePoint → Bool
  | .scalar c => c.isDigit
  | .lone _ => false

/-- The digits at the start of a text, and the rest. -/
def spanDigits (t : Text) : List Char × Text :=
  ((t.takeWhile isDigit).map fun c => Char.ofNat c.toNat, t.dropWhile isDigit)

/-- The fraction at the start of a text: a point and digits. -/
def readFraction (t : Text) : Option (List Char) × Text :=
  match t with
  | .scalar '.' :: rest =>
    let (digits, after) := spanDigits rest
    if digits.isEmpty then (none, t) else (some digits, after)
  | _ => (none, t)

/-- The exponent at the start of a text: a letter, perhaps a sign, and digits. -/
def readExponent (t : Text) : Option Int × Text :=
  match t with
  | c :: rest =>
    if c = .scalar 'e' ∨ c = .scalar 'E' then
      let (negative, unsigned) : Bool × Text := match rest with
        | .scalar '-' :: r => (true, r)
        | .scalar '+' :: r => (false, r)
        | r => (false, r)
      let (digits, after) := spanDigits unsigned
      let n : Int := Nat.ofDigitChars 10 digits 0
      if digits.isEmpty then (none, t) else (some (if negative then -n else n), after)
    else (none, t)
  | [] => (none, t)

/-- The whole part of a number: a zero, or digits that start with another one. -/
def readWhole (t : Text) : Option (List Char × Text) :=
  match t with
  | .scalar '0' :: rest => some (['0'], rest)
  | _ =>
    let (digits, rest) := spanDigits t
    if digits.isEmpty then none else some (digits, rest)

/-- Reads a number. It is an integer unless it has a fraction or an exponent. -/
def readNumber (t : Text) : Except Stop (Json × Text) :=
  let (negative, unsigned) : Bool × Text := match t with
    | .scalar '-' :: r => (true, r)
    | r => (false, r)
  match readWhole unsigned with
  | none => .error (.problem .expectingValue t.length)
  | some (whole, rest) =>
    match readFraction rest with
    | (fraction, rest) =>
      match fraction, readExponent rest with
      | none, (none, rest) =>
        if Literal.maxIntDigits < whole.length then .error (.tooManyDigits whole.length)
        else
          let n : Int := Nat.ofDigitChars 10 whole 0
          .ok (int (if negative then -n else n), rest)
      | fraction, (exponent, rest) =>
        .ok (float ((Decimal.ofParts whole (fraction.getD []) (exponent.getD 0)).toBinary64 negative),
          rest)

def words : List (Text × Json) :=
  [("null", null), ("true", bool true), ("false", bool false), ("NaN", float .nan),
    ("Infinity", float (.infinite false)), ("-Infinity", float (.infinite true))]

/-- Reads a word, or a number where no word stands. -/
def readScalar (t : Text) : Except Stop (Json × Text) :=
  match words.find? fun w => t.startsWith w.1 with
  | some (word, j) => .ok (j, t.drop word.length)
  | none => readNumber t

/-- The members of an object as they count: a repeated key has its first place and its last data. -/
def settle (members : List (Text × Json)) : List (Text × Json) :=
  members.foldl (fun settled m => insertMember settled m.1 m.2) []

mutual

/-- Reads data at the start of a text, which no blank precedes. Every code point costs at most two
units of fuel, so any fuel above twice the length of the text is enough. -/
def readValue : Nat → Text → Except Stop (Json × Text)
  | 0, t => .error (.problem .expectingValue t.length)
  | fuel + 1, t =>
    match t with
    | .scalar '"' :: rest => (readString t.length none rest).map fun p => (text p.1, p.2)
    | .scalar '[' :: rest =>
      match skipBlanks rest with
      | .scalar ']' :: rest => .ok (array [], rest)
      | rest => (readItems fuel rest).map fun p => (array p.1, p.2)
    | .scalar '{' :: rest =>
      match skipBlanks rest with
      | .scalar '}' :: rest => .ok (object [], rest)
      | rest => (readMembers fuel rest).map fun p => (object (settle p.1), p.2)
    | t => readScalar t

def readItems : Nat → Text → Except Stop (List Json × Text)
  | 0, t => .error (.problem .expectingValue t.length)
  | fuel + 1, t =>
    match readValue fuel t with
    | .error e => .error e
    | .ok (j, rest) =>
      match skipBlanks rest with
      | .scalar ']' :: rest => .ok ([j], rest)
      | .scalar ',' :: rest => (readItems fuel (skipBlanks rest)).map fun p => (j :: p.1, p.2)
      | rest => .error (.problem .expectingComma rest.length)

def readMembers : Nat → Text → Except Stop (List (Text × Json) × Text)
  | 0, t => .error (.problem .expectingKey t.length)
  | fuel + 1, t =>
    match t with
    | .scalar '"' :: rest =>
      match readString t.length none rest with
      | .error e => .error e
      | .ok (key, rest) =>
        match skipBlanks rest with
        | .scalar ':' :: rest =>
          match readValue fuel (skipBlanks rest) with
          | .error e => .error e
          | .ok (j, rest) =>
            match skipBlanks rest with
            | .scalar '}' :: rest => .ok ([(key, j)], rest)
            | .scalar ',' :: rest =>
              (readMembers fuel (skipBlanks rest)).map fun p => ((key, j) :: p.1, p.2)
            | rest => .error (.problem .expectingComma rest.length)
        | rest => .error (.problem .expectingColon rest.length)
    | t => .error (.problem .expectingKey t.length)

end

/-- Reads a text that is data and blanks and nothing else. -/
def readAll (t : Text) : Except Stop Json :=
  if t.head? = some (CodePoint.ofNat 0xFEFF) then .error (.problem .byteOrderMark t.length)
  else
    match readValue (2 * t.length + 1) (skipBlanks t) with
    | .error e => .error e
    | .ok (j, rest) =>
      match skipBlanks rest with
      | [] => .ok j
      | rest => .error (.problem .extraData rest.length)

def read (t : Text) : Except ReadError Json :=
  match readAll t with
  | .ok j => .ok j
  | .error (.problem p left) => .error (.malformed p (placeAt t (t.length - left)))
  | .error (.tooManyDigits count) => .error (.tooManyDigits count)

end RowQuery.Json
