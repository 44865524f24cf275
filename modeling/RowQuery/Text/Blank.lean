import RowQuery.Text.Basic

/-!
# White space and decimal digits

The code points that count as blank, and the decimal digits of every script, after the Unicode
properties `White_Space` and `Numeric_Type=Decimal`. The information separators `U+001C` to `U+001F`
count as blank too, but they are no white space.
-/

set_option autoImplicit false

namespace RowQuery

namespace CodePoint

def wideBlanks : List Nat :=
  [0x85, 0xA0, 0x1680, 0x2000, 0x2001, 0x2002, 0x2003, 0x2004, 0x2005, 0x2006, 0x2007, 0x2008,
    0x2009, 0x200A, 0x2028, 0x2029, 0x202F, 0x205F, 0x3000]

/-- The blanks of the keyboard: space, tab, and the line and page breaks. -/
def isAsciiBlank (c : CodePoint) : Bool :=
  c.toNat = 0x20 || (0x09 ≤ c.toNat && c.toNat ≤ 0x0D)

/-- White space, after the Unicode property. -/
def isWhite (c : CodePoint) : Bool := c.isAsciiBlank || wideBlanks.contains c.toNat

def isBlank (c : CodePoint) : Bool := c.isWhite || (0x1C ≤ c.toNat && c.toNat ≤ 0x1F)

/-- The digit zero of every script; its nine successors are the other digits. -/
def zeros : List Nat :=
  [0x30, 0x660, 0x6F0, 0x7C0, 0x966, 0x9E6, 0xA66, 0xAE6, 0xB66, 0xBE6, 0xC66, 0xCE6, 0xD66,
    0xDE6, 0xE50, 0xED0, 0xF20, 0x1040, 0x1090, 0x17E0, 0x1810, 0x1946, 0x19D0, 0x1A80, 0x1A90,
    0x1B50, 0x1BB0, 0x1C40, 0x1C50, 0xA620, 0xA8D0, 0xA900, 0xA9D0, 0xA9F0, 0xAA50, 0xABF0,
    0xFF10, 0x104A0, 0x10D30, 0x11066, 0x110F0, 0x11136, 0x111D0, 0x112F0, 0x11450, 0x114D0,
    0x11650, 0x116C0, 0x11730, 0x118E0, 0x11950, 0x11C50, 0x11D50, 0x11DA0, 0x16A60, 0x16AC0,
    0x16B50, 0x1D7CE, 0x1D7D8, 0x1D7E2, 0x1D7EC, 0x1D7F6, 0x1E140, 0x1E2F0, 0x1E950, 0x1FBF0]

def digit? (c : CodePoint) : Option Nat :=
  (zeros.find? fun z => z ≤ c.toNat && c.toNat < z + 10).map (c.toNat - ·)

end CodePoint

/-- Drops the code points that satisfy `p` at both ends. -/
def Text.trimWhile (p : CodePoint → Bool) (t : Text) : Text := dropEndWhile p (t.dropWhile p)

def Text.trim (t : Text) : Text := t.trimWhile CodePoint.isBlank

end RowQuery
