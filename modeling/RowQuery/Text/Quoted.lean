import RowQuery.Text.Printable

/-!
# Quoted text

How a text or an octet sequence stands inside a message. The quotes are single ones unless the
content holds a single quote and no double quote. The backslash, the quote in use and everything
that is not printable are escaped.
-/

set_option autoImplicit false

namespace RowQuery

/-- Single quotes, or double quotes where these save an escape. -/
def quoteMark (hasSingle hasDouble : Bool) : Char := if hasSingle && !hasDouble then '"' else '\''

namespace CodePoint

/-- The escape by number: two, four or eight digits, as few as hold the number. -/
def escapeByNumber (n : Nat) : Text :=
  if n < 0x100 then .scalar '\\' :: .scalar 'x' :: Text.ofHex 2 n
  else if n < 0x10000 then .scalar '\\' :: .scalar 'u' :: Text.ofHex 4 n
  else .scalar '\\' :: .scalar 'U' :: Text.ofHex 8 n

def quoted (quote : Char) (c : CodePoint) : Text :=
  if c = .scalar quote || c = .scalar '\\' then [.scalar '\\', c]
  else if c = .scalar '\n' then Text.ofString "\\n"
  else if c = .scalar '\r' then Text.ofString "\\r"
  else if c = .scalar '\t' then Text.ofString "\\t"
  else if c.isPrintable then [c]
  else escapeByNumber c.toNat

end CodePoint

namespace Text

def quoted (t : Text) : Text :=
  let quote := quoteMark (t.contains (.scalar '\'')) (t.contains (.scalar '"'))
  .scalar quote :: t.flatMap (CodePoint.quoted quote) ++ [.scalar quote]

/-- An octet sequence: like a text of the same numbers, but all of its non-ASCII part is escaped. -/
def quotedOctets (bs : List UInt8) : Text :=
  let quote := quoteMark (bs.contains 0x27) (bs.contains 0x22)
  let octet (b : UInt8) : Text :=
    if b < 0x80 then (CodePoint.ofNat b.toNat).quoted quote
    else CodePoint.escapeByNumber b.toNat
  .scalar 'b' :: .scalar quote :: bs.flatMap octet ++ [.scalar quote]

end Text

end RowQuery
