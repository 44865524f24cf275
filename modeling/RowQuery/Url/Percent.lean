import RowQuery.Text.Utf8
import RowQuery.Value.Basic

/-!
# Percent encoding

A text becomes ASCII: letters, digits and `_ . - ~` stand for themselves and every other octet of
its UTF-8 form becomes an escape. Reading is lenient: a percent sign that starts no escape stands
for itself, code points outside ASCII are kept, and ill-formed UTF-8 is replaced.
-/

set_option autoImplicit false

namespace RowQuery.Percent

/-- Whether an octet stands for itself. -/
def isPlain (b : UInt8) : Bool :=
  let c := Char.ofNat b.toNat
  b < 0x80 && (c.isAlphanum || c == '_' || c == '.' || c == '-' || c == '~')

def hexDigit (n : Nat) : Char := (Nat.digitChar n).toUpper

def encodeOctet (b : UInt8) : List Char :=
  if isPlain b then [Char.ofNat b.toNat]
  else ['%', hexDigit (b.toNat / 16), hexDigit (b.toNat % 16)]

def encodeOctets (bs : List UInt8) : List Char := bs.flatMap encodeOctet

/-- The characters of a text, or the first run of lone surrogate halves in it. -/
def characters (t : Text) : Except RenderFailure (List Char) :=
  match t.chars? with
  | some cs => .ok cs
  | none =>
    let before := t.takeWhile CodePoint.isScalar
    let rest := t.dropWhile CodePoint.isScalar
    let run := rest.takeWhile fun c => !c.isScalar
    .error (.unencodable (rest.headD default) before.length (before.length + run.length - 1))

def encode (t : Text) : Except RenderFailure Text := do
  let cs ← characters t
  pure (Text.ofChars (encodeOctets (Utf8.encode cs)))

def octet? (a b : CodePoint) : Option Nat := do pure ((← a.hexValue?) * 16 + (← b.hexValue?))

/-- Decodes while a character may be pending: escapes and ASCII give octets, and any other code point
ends the run of octets. -/
def decodeFrom (pending : Option Utf8.Pending) : Text → Text
  | [] => Text.ofChars (Utf8.finish pending)
  | .scalar '%' :: a :: b :: t =>
    match octet? a b with
    | some n =>
      Text.ofChars (Utf8.step pending n).1 ++ decodeFrom (Utf8.step pending n).2 t
    | none =>
      Text.ofChars (Utf8.step pending 0x25).1 ++ decodeFrom (Utf8.step pending 0x25).2 (a :: b :: t)
  | c :: t =>
    if c.toNat < 0x80 then
      Text.ofChars (Utf8.step pending c.toNat).1 ++ decodeFrom (Utf8.step pending c.toNat).2 t
    else Text.ofChars (Utf8.finish pending) ++ c :: decodeFrom none t

/-- The text that an encoded text stands for. -/
def decode (t : Text) : Text := decodeFrom none t

end RowQuery.Percent
