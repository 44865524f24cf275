import Mathlib.Algebra.Order.Field.Basic
import Mathlib.Data.Rat.Cast.Order
import Mathlib.Tactic.NormNum
import RowQuery.Proofs.Json.Numbers

/-!
# The grammar of JSON

The strict grammar, apart from any reader: no words but `null`, `true` and `false`, no zeros in front of a
number, and no control characters in strings. A tree keeps strings and numbers as they are written, so that
the quantity that a number text stands for is exact. Numbers of a fixed form are built here from their digits.
-/

namespace RowQuery.Json

open Binary64 (minus hundredths)

set_option autoImplicit false

/-! ## Numbers -/

/-- The digits in front of the point: a zero alone, or digits that start with another one. -/
structure IsWhole (ds : List Char) : Prop where
  digits : AllDigits ds
  nonempty : ds ≠ []
  zero : ds.head? = some '0' → ds = ['0']

/-- An exponent: a letter of either case, perhaps a sign, and digits. -/
structure Exponent where
  capital : Bool
  /-- The sign, where one is written: whether it is a minus. -/
  sign : Option Bool
  digits : List Char
  allDigits : AllDigits digits
  nonempty : digits ≠ []

namespace Exponent

def signText : Option Bool → Text
  | none => []
  | some negative => [.scalar (if negative then '-' else '+')]

def text (e : Exponent) : Text :=
  .scalar (if e.capital then 'E' else 'e') :: (signText e.sign ++ Text.ofChars e.digits)

def value (e : Exponent) : Int :=
  if e.sign = some true then -(Nat.ofDigitChars 10 e.digits 0) else Nat.ofDigitChars 10 e.digits 0

end Exponent

/-- A number as it is written. A point stands in front of the digits of a fraction, if there are any. -/
structure Numeral where
  negative : Bool
  whole : List Char
  fraction : List Char
  exponent : Option Exponent
  isWhole : IsWhole whole
  allDigits : AllDigits fraction

namespace Numeral

def fractionText (ds : List Char) : Text := if ds = [] then [] else .scalar '.' :: Text.ofChars ds

def text (m : Numeral) : Text :=
  minus m.negative ++ Text.ofChars m.whole ++ fractionText m.fraction ++
    m.exponent.elim [] Exponent.text

/-- The quantity that a number text stands for: its digits without the point, scaled. -/
def value (m : Numeral) : ℚ :=
  (if m.negative then -1 else 1) * (Nat.ofDigitChars 10 (m.whole ++ m.fraction) 0 : ℚ) *
    (10 : ℚ) ^ (m.exponent.elim 0 Exponent.value - (m.fraction.length : ℤ))

end Numeral

/-! ## Data -/

/-- Data with its strings as they are written between their quotes, and its numbers as they are written. -/
inductive Tree where
  | null
  | bool (b : Bool)
  | number (m : Numeral)
  | string (body : Text)
  | array (items : List Tree)
  | object (members : List (Text × Tree))

/-- What may stand between the quotes of a string. -/
inductive IsBody : Text → Prop
  | nil : IsBody []
  | plain {c : CodePoint} {t : Text} (hcontrol : 0x20 ≤ c.toNat) (hquote : c ≠ .scalar '"')
      (hslash : c ≠ .scalar '\\') (ht : IsBody t) : IsBody (c :: t)
  | letter {e : CodePoint} {t : Text} (he : (shortEscape? e).isSome = true) (ht : IsBody t) :
      IsBody (.scalar '\\' :: e :: t)
  | unit {a b c d : CodePoint} {t : Text} (hunit : (hexUnit? a b c d).isSome = true) (ht : IsBody t) :
      IsBody (.scalar '\\' :: .scalar 'u' :: a :: b :: c :: d :: t)

/-- Blanks, or nothing. -/
def AreBlanks (t : Text) : Prop := ∀ c ∈ t, isBlank c = true

mutual

/-- The text is data, with no blank around it. -/
inductive IsData : Text → Tree → Prop
  | null : IsData (Text.ofString "null") .null
  | true : IsData (Text.ofString "true") (.bool .true)
  | false : IsData (Text.ofString "false") (.bool .false)
  | number (m : Numeral) : IsData m.text (.number m)
  | string {body : Text} (h : IsBody body) :
      IsData (.scalar '"' :: body ++ [.scalar '"']) (.string body)
  | emptyArray {a : Text} (ha : AreBlanks a) : IsData (.scalar '[' :: a ++ [.scalar ']']) (.array [])
  | array {t : Text} {items : List Tree} (h : AreItems t items) :
      IsData (.scalar '[' :: t ++ [.scalar ']']) (.array items)
  | emptyObject {a : Text} (ha : AreBlanks a) : IsData (.scalar '{' :: a ++ [.scalar '}']) (.object [])
  | object {t : Text} {members : List (Text × Tree)} (h : AreMembers t members) :
      IsData (.scalar '{' :: t ++ [.scalar '}']) (.object members)

/-- The text is data, perhaps with blanks around it. -/
inductive IsDocument : Text → Tree → Prop
  | mk {a t b : Text} {tree : Tree} (ha : AreBlanks a) (h : IsData t tree) (hb : AreBlanks b) :
      IsDocument (a ++ t ++ b) tree

inductive AreItems : Text → List Tree → Prop
  | last {t : Text} {tree : Tree} (h : IsDocument t tree) : AreItems t [tree]
  | more {t rest : Text} {tree : Tree} {items : List Tree} (h : IsDocument t tree)
      (hrest : AreItems rest items) : AreItems (t ++ .scalar ',' :: rest) (tree :: items)

inductive IsMember : Text → Text × Tree → Prop
  | mk {a name b t : Text} {tree : Tree} (ha : AreBlanks a) (hname : IsBody name) (hb : AreBlanks b)
      (h : IsDocument t tree) :
      IsMember (a ++ .scalar '"' :: name ++ .scalar '"' :: b ++ .scalar ':' :: t) (name, tree)

/-- The text is the members of an object. -/
inductive AreMembers : Text → List (Text × Tree) → Prop
  | last {t : Text} {m : Text × Tree} (h : IsMember t m) : AreMembers t [m]
  | more {t rest : Text} {m : Text × Tree} {members : List (Text × Tree)} (h : IsMember t m)
      (hrest : AreMembers rest members) : AreMembers (t ++ .scalar ',' :: rest) (m :: members)

end

theorem areBlanks_nil : AreBlanks [] := nofun

/-- A text without quotes, backslashes and control characters is written as it is. -/
theorem IsBody.of_plain {t : Text}
    (h : ∀ c ∈ t, 0x20 ≤ c.toNat ∧ c ≠ .scalar '"' ∧ c ≠ .scalar '\\') : IsBody t := by
  induction t with
  | nil => exact .nil
  | cons c t ih =>
    obtain ⟨⟨hcontrol, hquote, hslash⟩, ht⟩ := List.forall_mem_cons.1 h
    exact .plain hcontrol hquote hslash (ih ht)

theorem IsData.isDocument {t : Text} {tree : Tree} (h : IsData t tree) : IsDocument t tree := by
  have hdocument := IsDocument.mk areBlanks_nil h areBlanks_nil
  rwa [List.nil_append, List.append_nil] at hdocument

/-- A member without blanks. -/
theorem IsData.isMember {name t : Text} {tree : Tree} (hname : IsBody name) (h : IsData t tree) :
    IsMember (.scalar '"' :: name ++ .scalar '"' :: .scalar ':' :: t) (name, tree) := by
  have hmember := IsMember.mk areBlanks_nil hname areBlanks_nil h.isDocument
  simpa using hmember

/-! ## Texts of numbers -/

namespace Numeral

/-- The characters of numbers. -/
def IsPart (c : CodePoint) : Prop := isDigit c = true ∨ c ∈ Text.ofString "-+.eE"

theorem isPart_of_mem_ofChars {ds : List Char} (h : AllDigits ds) : ∀ c ∈ Text.ofChars ds, IsPart c := by
  intro c hc
  obtain ⟨d, hd, rfl⟩ := List.mem_map.1 hc
  exact .inl (h d hd)

theorem isPart_of_mem_exponent (e : Exponent) : ∀ c ∈ e.text, IsPart c := by
  have hletter : IsPart (.scalar (if e.capital then 'E' else 'e')) := by
    cases e.capital <;> exact .inr (by decide)
  have hsign : ∀ c ∈ Exponent.signText e.sign, IsPart c := by
    rcases e.sign with _ | _ | _
    · exact nofun
    all_goals exact List.forall_mem_singleton.2 (.inr (by decide))
  exact List.forall_mem_cons.2
    ⟨hletter, List.forall_mem_append.2 ⟨hsign, isPart_of_mem_ofChars e.allDigits⟩⟩

/-- A number is written with the characters of numbers only. -/
theorem isPart_of_mem_text (m : Numeral) : ∀ c ∈ m.text, IsPart c := by
  have hminus : ∀ c ∈ minus m.negative, IsPart c := by
    cases m.negative
    · exact nofun
    · exact List.forall_mem_singleton.2 (.inr (by decide))
  have hfraction : ∀ c ∈ fractionText m.fraction, IsPart c := by
    unfold fractionText
    split
    · exact nofun
    · exact List.forall_mem_cons.2 ⟨.inr (by decide), isPart_of_mem_ofChars m.allDigits⟩
  have hexponent : ∀ c ∈ m.exponent.elim [] Exponent.text, IsPart c := by
    cases m.exponent with
    | none => exact nofun
    | some e => exact isPart_of_mem_exponent e
  exact List.forall_mem_append.2 ⟨List.forall_mem_append.2 ⟨List.forall_mem_append.2
    ⟨hminus, isPart_of_mem_ofChars m.isWhole.digits⟩, hfraction⟩, hexponent⟩

theorem isWhole_toDigits (n : Nat) : IsWhole (Nat.toDigits 10 n) :=
  ⟨allDigits_toDigits n, Nat.toDigits_ne_nil, toDigits_head⟩

def ofInt (n : Int) : Numeral where
  negative := n < 0
  whole := Nat.toDigits 10 n.natAbs
  fraction := []
  exponent := none
  isWhole := isWhole_toDigits _
  allDigits := allDigits_nil

theorem text_ofInt (n : Int) : (ofInt n).text = Text.ofInt n := by
  rw [ofInt_eq]
  simp [text, ofInt, fractionText, Text.ofNat]

theorem value_ofInt (n : Int) : (ofInt n).value = n := by
  have habs : ((n.natAbs : Nat) : ℚ) = |(n : ℚ)| := by rw [Nat.cast_natAbs, Int.cast_abs]
  simp only [value, ofInt, List.append_nil, Nat.ofDigitChars_ten_toDigits, habs, decide_eq_true_eq,
    Option.elim_none, List.length_nil, Nat.cast_zero, sub_zero, zpow_zero, mul_one]
  split
  · next hn => rw [abs_of_neg (Int.cast_lt_zero.2 hn), neg_one_mul, neg_neg]
  · next hn => rw [abs_of_nonneg (Int.cast_nonneg (not_lt.1 hn)), one_mul]

def twoDigits (n : Nat) : List Char :=
  List.replicate (2 - (Nat.toDigits 10 n).length) '0' ++ Nat.toDigits 10 n

theorem length_twoDigits {n : Nat} (h : n < 100) : (twoDigits n).length = 2 := by
  have hlength : (Nat.toDigits 10 n).length ≤ 2 :=
    (Nat.length_toDigits_le_iff (by decide) (by decide)).2 h
  rw [twoDigits, List.length_append, List.length_replicate]
  omega

/-- A number of hundredths as it is written. -/
def ofHundredths (negative : Bool) (n : Nat) : Numeral where
  negative := negative
  whole := Nat.toDigits 10 (n / 100)
  fraction := twoDigits (n % 100)
  exponent := none
  isWhole := isWhole_toDigits _
  allDigits := (allDigits_zeros _).append (allDigits_toDigits _)

theorem text_ofHundredths (negative : Bool) (n : Nat) :
    (ofHundredths negative n).text = minus negative ++ hundredths n := by
  have hlength : twoDigits (n % 100) ≠ [] := fun h => by
    have htwo := length_twoDigits (Nat.mod_lt n (show 0 < 100 by decide))
    rw [h] at htwo
    cases htwo
  have hpad : Text.padStart 2 (.scalar '0') (Text.ofNat (n % 100)) = Text.ofChars (twoDigits (n % 100)) := by
    simp [Text.padStart, Text.ofNat, Text.ofChars, twoDigits]
  simp [text, ofHundredths, fractionText, hlength, hundredths, ← hpad, Text.ofNat]

/-- The text of a number of hundredths stands for its hundredth part. -/
theorem value_ofHundredths (negative : Bool) (n : Nat) :
    (ofHundredths negative n).value = (if negative then -1 else 1) * ((n : ℚ) / 100) := by
  have htwo := length_twoDigits (Nat.mod_lt n (show 0 < 100 by decide))
  have hlow : Nat.ofDigitChars 10 (twoDigits (n % 100)) 0 = n % 100 := by
    rw [twoDigits, ofDigitChars_zeros_append, Nat.ofDigitChars_ten_toDigits]
  have hdigits : Nat.ofDigitChars 10 (Nat.toDigits 10 (n / 100) ++ twoDigits (n % 100)) 0 = n := by
    rw [Nat.ofDigitChars_append, Nat.ofDigitChars_ten_toDigits, Nat.ofDigitChars_eq_ofDigitChars_zero,
      htwo, hlow]
    omega
  have hscale : (10 : ℚ) ^ (0 - ((2 : Nat) : ℤ)) = 1 / 100 := by norm_num
  simp only [value, ofHundredths, hdigits, htwo, Option.elim_none, hscale]
  rw [mul_assoc, mul_one_div]
  rfl

end Numeral

end RowQuery.Json
