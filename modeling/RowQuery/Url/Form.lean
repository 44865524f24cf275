import RowQuery.Url.Percent
import RowQuery.Value.Inspect

/-!
# Form encoding

A query string is a list of fields `name=value` joined by `&`. Names and values are percent-encoded,
except that a space becomes a plus sign. Reading ignores question marks at the start and empty
fields; a field without `=` has the empty value.
-/

set_option autoImplicit false

namespace RowQuery.Form

/-- An octet of a name or a value. -/
def encodeOctet (b : UInt8) : List Char := if b = 0x20 then ['+'] else Percent.encodeOctet b

def encodeOctets (bs : List UInt8) : Text := Text.ofChars (bs.flatMap encodeOctet)

def encodeText (t : Text) : Except RenderFailure Text := do
  let cs ← Percent.characters t
  pure (encodeOctets (Utf8.encode cs))

/-- A name in a query string: octets as they are, any other value as it is displayed. -/
def encodeName : Value → Except RenderFailure Text
  | .octets bs => .ok (encodeOctets bs)
  | v => do encodeText (← v.display)

def encodeField (field : Value × Text) : Except RenderFailure Text := do
  let name ← encodeName field.1
  let value ← encodeText field.2
  pure (name ++ [.scalar '='] ++ value)

def encode (fields : List (Value × Text)) : Except RenderFailure Text := do
  let encoded ← fields.mapM encodeField
  pure (Text.join [.scalar '&'] encoded)

def plusToSpace (t : Text) : Text := t.map fun c => if c = .scalar '+' then .scalar ' ' else c

def decodeText (t : Text) : Text := Percent.decode (plusToSpace t)

/-- One field; without a separator the value is empty. -/
def decodeField (t : Text) : Text × Text :=
  match t.splitFirst? (.scalar '=') with
  | some (name, value) => (decodeText name, decodeText value)
  | none => (decodeText t, [])

def decode (t : Text) : List (Text × Text) :=
  let body : Text := t.dropWhile (· = CodePoint.scalar '?')
  ((body.split (.scalar '&')).filter (!·.isEmpty)).map decodeField

end RowQuery.Form
