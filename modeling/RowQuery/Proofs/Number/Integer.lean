import RowQuery.Proofs.Json.Numbers

/-!
# Whole numbers from texts

The reader of whole numbers that stands outside the command line: it counts the digits and not the sign.
Main statement: an integer that has a text is read back from it.
-/

namespace RowQuery.Literal

open Json (AllDigits)

set_option autoImplicit false

/-- The whole number that a text stands for: digits of any script after at most one sign, with blanks
around and single underscores between digits. There may be at most `maxIntDigits` digits. -/
def integer? (t : Text) : Option Int := do
  let (negative, body) := sign (trim (← toAscii? t))
  let digits ← dropUnderscores? false body
  if digits.isEmpty || !digits.all Char.isDigit || maxIntDigits < digits.length then none
  else
    let n : Int := Nat.ofDigitChars 10 digits 0
    some (if negative then -n else n)

theorem toAscii?_ofChars {cs : List Char} (h : ∀ c ∈ cs, c.toNat < 0x80) :
    toAscii? (Text.ofChars cs) = some cs := by
  induction cs with
  | nil => rfl
  | cons c cs ih =>
    obtain ⟨hc, hcs⟩ := List.forall_mem_cons.1 h
    have hfirst : (CodePoint.scalar c).toNat < 0x80 := hc
    have hself : Char.ofNat (CodePoint.scalar c).toNat = c := Char.ofNat_toNat c
    have hrest := ih hcs
    unfold toAscii? Text.ofChars at hrest ⊢
    rw [List.map_cons, List.mapM_cons, if_pos hfirst, hself]
    simp [hrest]

/-- Nothing is trimmed where there is no blank. -/
theorem trim_eq_self {cs : List Char} (h : ∀ c ∈ cs, isBlank c = false) : trim cs = cs := by
  have hkeep : ∀ {ds : List Char}, (∀ c ∈ ds, isBlank c = false) → ds.dropWhile isBlank = ds := by
    intro ds hall
    cases ds with
    | nil => rfl
    | cons d ds => exact List.dropWhile_cons_of_neg (by simp [hall d List.mem_cons_self])
  unfold trim
  rw [hkeep h, hkeep (by simpa using h), List.reverse_reverse]

theorem ne_of_allDigits {d : Char} {ds : List Char} (h : AllDigits (d :: ds)) {c : Char}
    (hc : c.isDigit = false) : d ≠ c := by
  rintro rfl
  cases hc.symm.trans (h d List.mem_cons_self)

/-- Digits without underscores are kept. -/
theorem dropUnderscores?_digits {ds : List Char} (h : AllDigits ds) (afterDigit : Bool) :
    dropUnderscores? afterDigit ds = some ds := by
  induction ds generalizing afterDigit with
  | nil => rfl
  | cons d ds ih =>
    rw [dropUnderscores?, ih (List.forall_mem_cons.1 h).2]
    · rfl
    · exact ne_of_allDigits h rfl

theorem sign_digits {ds : List Char} (h : AllDigits ds) : sign ds = (false, ds) := by
  cases ds with
  | nil => rfl
  | cons d ds =>
    rw [sign]
    · rintro cs ⟨⟩
      exact ne_of_allDigits h (c := '-') rfl rfl
    · rintro cs ⟨⟩
      exact ne_of_allDigits h (c := '+') rfl rfl

/-- A character of the text of an integer. -/
theorem ascii_of_isDigit {c : Char} (h : c.isDigit = true) : c.toNat < 0x80 ∧ isBlank c = false := by
  simp only [Char.isDigit, ge_iff_le, Bool.and_eq_true, decide_eq_true_eq] at h
  have hlow : 0x30 ≤ c.toNat := h.1
  have hhigh : c.toNat ≤ 0x39 := h.2
  have hspace : (CodePoint.scalar c).toNat ≠ 0x20 := by
    change c.toNat ≠ 0x20
    omega
  have hbreak : ¬ (CodePoint.scalar c).toNat ≤ 0x0D := by
    change ¬ c.toNat ≤ 0x0D
    omega
  exact ⟨by omega, by simp [isBlank, CodePoint.isAsciiBlank, hspace, hbreak]⟩

/-- The text of an integer is its sign, if it has one, and its digits. -/
theorem exists_ofInt (n : Int) : ∃ cs : List Char, Text.ofInt n = Text.ofChars cs ∧
    (∀ c ∈ cs, c.toNat < 0x80 ∧ isBlank c = false) ∧
      sign cs = (decide (n < 0), Nat.toDigits 10 n.natAbs) := by
  have hdigits := Json.allDigits_toDigits n.natAbs
  have hascii : ∀ c ∈ Nat.toDigits 10 n.natAbs, c.toNat < 0x80 ∧ isBlank c = false := fun c hc =>
    ascii_of_isDigit (hdigits c hc)
  cases n with
  | ofNat n =>
    have hsign : decide (Int.ofNat n < 0) = false :=
      decide_eq_false (Int.not_lt.2 (Int.natCast_nonneg n))
    rw [hsign]
    exact ⟨Nat.toDigits 10 n, rfl, hascii, sign_digits hdigits⟩
  | negSucc n =>
    refine ⟨'-' :: Nat.toDigits 10 (n + 1), rfl, List.forall_mem_cons.2 ⟨by decide, hascii⟩, ?_⟩
    rw [decide_eq_true (Int.negSucc_lt_zero n)]
    rfl

/-- The text of an integer that has one stands for the integer. -/
theorem integer?_ofInt {n : Int} (h : Decimal.length n.natAbs ≤ maxIntDigits) :
    integer? (Text.ofInt n) = some n := by
  obtain ⟨cs, htext, hascii, hsign⟩ := exists_ofInt n
  have hdigits := Json.allDigits_toDigits n.natAbs
  have hall : (Nat.toDigits 10 n.natAbs).all Char.isDigit = true := List.all_eq_true.2 hdigits
  have hempty : (Nat.toDigits 10 n.natAbs).isEmpty = false := by simp
  unfold integer?
  rw [htext, toAscii?_ofChars fun c hc => (hascii c hc).1]
  simp only [Option.bind_eq_bind, Option.bind_some, trim_eq_self fun c hc => (hascii c hc).2, hsign,
    dropUnderscores?_digits hdigits, hempty, hall, Nat.ofDigitChars_ten_toDigits]
  rw [if_neg (by simpa using Json.length_toDigits_le h)]
  congr 1
  split
  · next hn =>
    have hn := of_decide_eq_true hn
    omega
  · next hn =>
    have hn : ¬ n < 0 := fun hlt => hn (decide_eq_true hlt)
    omega

end RowQuery.Literal
