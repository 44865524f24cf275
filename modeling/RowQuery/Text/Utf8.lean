import RowQuery.Text.Basic

/-!
# UTF-8

Writing gives the UTF-8 form of each character. Reading is lenient: every octet sequence has a
reading, in which each longest start of an ill-formed character stands as one replacement
character. The reader owes the rest of at most one character at a time, so it is a machine with one
pending character.
-/

set_option autoImplicit false

namespace RowQuery.Utf8

abbrev Octets := List UInt8

def encode (cs : List Char) : Octets := cs.flatMap String.utf8EncodeChar

/-- Stands for octets that are no character. -/
def replacement : Char := '\uFFFD'

/-- A character of which some octets are read: their value, how many are owed, and the bounds of
the next one. -/
structure Pending where
  value : Nat
  owed : Nat
  low : Nat
  high : Nat

inductive Lead where
  | whole (c : Char)
  | opens (p : Pending)
  | illFormed

/-- The second octet of some leads has narrower bounds, which shut out overlong forms, surrogate
halves and numbers from `0x110000`. -/
def lead (b : Nat) : Lead :=
  if b < 0x80 then .whole (Char.ofNat b)
  else if b < 0xC2 then .illFormed
  else if b < 0xE0 then .opens ⟨b - 0xC0, 1, 0x80, 0xBF⟩
  else if b < 0xF0 then
    .opens ⟨b - 0xE0, 2, if b = 0xE0 then 0xA0 else 0x80, if b = 0xED then 0x9F else 0xBF⟩
  else if b < 0xF5 then
    .opens ⟨b - 0xF0, 3, if b = 0xF0 then 0x90 else 0x80, if b = 0xF4 then 0x8F else 0xBF⟩
  else .illFormed

/-- What an octet outside a character adds: the characters that it settles, and the one it opens. -/
def start (b : Nat) : List Char × Option Pending :=
  match lead b with
  | .whole c => ([c], none)
  | .opens p => ([], some p)
  | .illFormed => ([replacement], none)

/-- What an octet adds while a character may be pending. An octet that cannot continue the pending
character ends it as ill-formed and is read as a lead. -/
def step : Option Pending → Nat → List Char × Option Pending
  | none, b => start b
  | some p, b =>
    if p.low ≤ b ∧ b ≤ p.high then
      let value := p.value * 0x40 + (b - 0x80)
      if p.owed = 1 then ([Char.ofNat value], none)
      else ([], some ⟨value, p.owed - 1, 0x80, 0xBF⟩)
    else (replacement :: (start b).1, (start b).2)

/-- What the end of the octets adds. -/
def finish : Option Pending → List Char
  | none => []
  | some _ => [replacement]

/-- Reads octets while a character may be pending. -/
def decodeFrom : Option Pending → Octets → List Char
  | pending, [] => finish pending
  | pending, b :: bs => (step pending b.toNat).1 ++ decodeFrom (step pending b.toNat).2 bs

/-- The characters of any octet sequence, each ill-formed part replaced. -/
def decode (bs : Octets) : List Char := decodeFrom none bs

/-- The characters of a well-formed octet sequence: one that is the form of its reading. -/
def decode? (bs : Octets) : Option (List Char) :=
  if encode (decode bs) = bs then some (decode bs) else none

end RowQuery.Utf8
