import RowQuery.Json.Printer
import RowQuery.Json.Reader

/-!
# Strings read back

Each code point of a string is read from what it is written as, an escape or itself. On the wire surrogate
halves are written as they are and never pair, so a string is read as the text that it quotes. In ASCII they
are escaped, and a half that its partner follows is read as one code point with it.
-/

namespace RowQuery

set_option autoImplicit false

namespace CodePoint

/-- The first half of a surrogate pair. -/
def IsHigh (c : CodePoint) : Prop := Json.isHighSurrogate c.toNat = true

def IsLow (c : CodePoint) : Prop := Json.isLowSurrogate c.toNat = true

instance (c : CodePoint) : Decidable c.IsHigh := inferInstanceAs (Decidable (_ = _))

instance (c : CodePoint) : Decidable c.IsLow := inferInstanceAs (Decidable (_ = _))

/-- The code point of a surrogate pair. -/
def join (high low : CodePoint) : CodePoint :=
  ofNat (0x10000 + (high.toNat - 0xD800) * 0x400 + (low.toNat - 0xDC00))

theorem ofNat_toNat (c : CodePoint) : ofNat c.toNat = c := by
  cases c with
  | scalar c =>
    have hvalid : ¬ (0xD800 ≤ c.toNat ∧ c.toNat ≤ 0xDFFF) := by
      have := c.valid
      unfold UInt32.isValidChar Nat.isValidChar at this
      unfold Char.toNat
      omega
    change ofNat c.toNat = _
    rw [ofNat, if_neg hvalid, Char.ofNat_toNat]
  | lone half =>
    have hhalf := half.isLt
    have hvalid : 0xD800 ≤ 0xD800 + half.val ∧ 0xD800 + half.val ≤ 0xDFFF := by omega
    change ofNat (0xD800 + half.val) = _
    rw [ofNat, if_pos hvalid, Nat.add_sub_cancel_left, Fin.ofNat_val_eq_self]

theorem toNat_ofNat {n : Nat} (h : 0xD800 ≤ n ∧ n ≤ 0xDFFF) : (ofNat n).toNat = n := by
  rw [ofNat, if_pos h, toNat, Fin.val_ofNat, Nat.mod_eq_of_lt (by omega)]
  omega

/-- No code point has a number beyond those of Unicode. -/
theorem toNat_lt (c : CodePoint) : c.toNat < 0x110000 := by
  cases c with
  | scalar c =>
    have hvalid := c.valid
    unfold UInt32.isValidChar Nat.isValidChar at hvalid
    change c.val.toNat < _
    omega
  | lone half =>
    have hhalf := half.isLt
    change 0xD800 + half.val < _
    omega

end CodePoint

namespace Text

/-- The text with one code point in place of every half of a surrogate pair that its partner follows. -/
def paired : Text → Text
  | [] => []
  | [c] => [c]
  | c :: d :: t => if c.IsHigh ∧ d.IsLow then c.join d :: paired t else c :: paired (d :: t)

/-- The two halves of a surrogate pair stand side by side in the text. -/
def HasPair (t : Text) : Prop :=
  ∃ before high low after, t = before ++ high :: low :: after ∧ high.IsHigh ∧ low.IsLow

theorem paired_cons {c : CodePoint} (hc : ¬ c.IsHigh) (t : Text) : paired (c :: t) = c :: paired t := by
  cases t with
  | nil => rfl
  | cons d t => rw [paired, if_neg fun h => hc h.1]

/-- A text is read as it is unless there are pairs in it. -/
theorem paired_eq_self {t : Text} (h : ¬ t.HasPair) : t.paired = t := by
  induction t with
  | nil => rfl
  | cons c t ih =>
    have htail : ¬ HasPair t := by
      rintro ⟨before, high, low, after, rfl, hpair⟩
      exact h ⟨c :: before, high, low, after, rfl, hpair⟩
    cases t with
    | nil => rfl
    | cons d t =>
      rw [paired, if_neg fun hpair => h ⟨[], c, d, t, rfl, hpair⟩, ih htail]

end Text

namespace Json

open CodePoint (ofNat_toNat)

/-! ## Escapes by number -/

theorem hexValue_digitChar : ∀ d < 16, (CodePoint.scalar (Nat.digitChar d)).hexValue? = some d := by
  decide

/-- The last digit is the remainder, the digits before are those of the quotient. -/
theorem ofHex_succ {width : Nat} (hw : 0 < width) (n : Nat) :
    Text.ofHex (width + 1) n = Text.ofHex width (n / 16) ++ [.scalar (Nat.digitChar (n % 16))] := by
  rcases Nat.lt_or_ge n 16 with hn | hn
  · have hzero : n / 16 = 0 := by omega
    have hzeros : List.replicate width (CodePoint.scalar '0') =
        List.replicate (width - 1) (.scalar '0') ++ [.scalar '0'] := by
      rw [← List.replicate_succ', Nat.sub_add_cancel hw]
    rw [hzero, Nat.mod_eq_of_lt hn]
    simp only [Text.ofHex, Text.padStart, Nat.toDigits_of_lt_base hn, Nat.toDigits_zero, Text.ofChars,
      List.map_cons, List.map_nil, List.length_singleton, Nat.add_sub_cancel]
    rw [hzeros]
  · have hdigits : Nat.toDigits 16 n = Nat.toDigits 16 (n / 16) ++ [Nat.digitChar (n % 16)] := by
      have happend := Nat.toDigits_append_toDigits (b := 16) (n := n / 16) (d := n % 16) (by decide) (by omega)
        (Nat.mod_lt _ (by decide))
      rw [Nat.toDigits_of_lt_base (Nat.mod_lt n (by decide)), Nat.div_add_mod] at happend
      exact happend.symm
    simp only [Text.ofHex, Text.padStart, hdigits, Text.ofChars, List.map_append, List.map_cons, List.map_nil,
      List.length_append, List.length_singleton, Nat.add_sub_add_right, List.append_assoc]

/-- The digits in the escape of a number of 16 bits. -/
theorem exists_hexUnit {n : Nat} (hn : n < 0x10000) :
    ∃ a b c d, Text.ofHex 4 n = [a, b, c, d] ∧ hexUnit? a b c d = some n := by
  refine ⟨.scalar (Nat.digitChar (n / 16 / 16 / 16)), .scalar (Nat.digitChar (n / 16 / 16 % 16)),
    .scalar (Nat.digitChar (n / 16 % 16)), .scalar (Nat.digitChar (n % 16)), ?_, ?_⟩
  · have hlast : Text.ofHex 1 (n / 16 / 16 / 16) = [.scalar (Nat.digitChar (n / 16 / 16 / 16))] := by
      rw [Text.ofHex, Nat.toDigits_of_lt_base (by omega)]
      rfl
    rw [ofHex_succ (by decide), ofHex_succ (by decide), ofHex_succ (by decide), hlast]
    rfl
  · simp only [hexUnit?, hexValue_digitChar _ (show n / 16 / 16 / 16 < 16 by omega),
      hexValue_digitChar _ (Nat.mod_lt _ (show 0 < 16 by decide)), Option.bind_eq_bind, Option.bind_some]
    exact congrArg some (by omega)

/-- The half of a surrogate pair that is pending while a string is read. -/
def pendingText (pending : Option Nat) : Text := (pending.map CodePoint.ofNat).toList

/-- An escape by number is read as its number, whatever is pending. -/
theorem readString_unit (opening : Nat) (pending : Option Nat) {n : Nat} (hn : n < 0x10000) {t : Text}
    (ht : t ≠ []) : readString opening pending (escapeUnit n ++ t) =
      prepend (settleUnit pending n).1 (readString opening (settleUnit pending n).2 t) := by
  obtain ⟨x, y, z, w, hdigits, hunit⟩ := exists_hexUnit hn
  have hempty : t.isEmpty = false := List.isEmpty_eq_false_iff.2 ht
  rw [escapeUnit, hdigits]
  simp only [List.cons_append, List.nil_append, readString, hunit, hempty]
  rfl

theorem readString_short (opening : Nat) (pending : Option Nat) {e c : CodePoint}
    (he : shortEscape? e = some c) (t : Text) : readString opening pending (.scalar '\\' :: e :: t) =
      prepend (pendingText pending ++ [c]) (readString opening none t) := by
  have hu : e ≠ .scalar 'u' := by
    rintro rfl
    cases he
  rw [readString]
  · rw [he]
    rfl
  all_goals simp [hu]

theorem readString_plain (opening : Nat) (pending : Option Nat) {c : CodePoint} (hq : c ≠ .scalar '"')
    (hb : c ≠ .scalar '\\') (hc : ¬ c.toNat < 0x20) (t : Text) :
    readString opening pending (c :: t) =
      prepend (pendingText pending ++ [c]) (readString opening none t) := by
  rw [readString]
  · rw [if_neg hc]
    rfl
  all_goals simp [hq, hb]

/-- A number that is no surrogate half settles what is pending. -/
theorem settleUnit_of_scalar (pending : Option Nat) {c : CodePoint} (hhigh : ¬ c.IsHigh) (hlow : ¬ c.IsLow) :
    settleUnit pending c.toNat = (pendingText pending ++ [c], none) := by
  have hhigh : isHighSurrogate c.toNat = false := Bool.eq_false_iff.2 hhigh
  have hlow : isLowSurrogate c.toNat = false := Bool.eq_false_iff.2 hlow
  unfold settleUnit
  cases pending <;> simp only [hhigh, hlow, ofNat_toNat] <;> rfl

theorem not_isHalf {c : CodePoint} (hc : c.toNat < 0xD800 ∨ 0xDFFF < c.toNat) : ¬ c.IsHigh ∧ ¬ c.IsLow := by
  simp only [CodePoint.IsHigh, CodePoint.IsLow, isHighSurrogate, isLowSurrogate, Bool.and_eq_true,
    decide_eq_true_eq]
  omega

/-! ## Text as it is -/

theorem prepend_prepend (a b : Text) (r : Except Stop (Text × Text)) :
    prepend a (prepend b r) = prepend (a ++ b) r := by
  cases r with
  | error e => rfl
  | ok p => exact congrArg (fun t => Except.ok (t, p.2)) (List.append_assoc a b p.1).symm

/-- An escaped code point is read back in front of the rest of a string. -/
theorem readString_escaped (opening : Nat) (c : CodePoint) {t : Text} (ht : t ≠ []) :
    readString opening none (escaped false c ++ t) = prepend [c] (readString opening none t) := by
  unfold escaped
  split
  case h_8 hq hb hn hr htab hbs hf =>
    split
    · next hc =>
      have hcontrol : c.toNat < 0x20 := by simpa using hc
      have hunit : c.toNat < 0x10000 := by omega
      obtain ⟨hhigh, hlow⟩ := not_isHalf (c := c) (.inl (by omega))
      rw [escapeByNumber, if_pos hunit, readString_unit opening none hunit ht,
        settleUnit_of_scalar none hhigh hlow]
      rfl
    · next hc => exact readString_plain opening none hq hb (by simpa using hc) t
  all_goals exact readString_short opening none rfl t

/-- The body of a string on the wire is read back as it is. -/
theorem readString_quotedText (opening : Nat) (t rest : Text) :
    readString opening none (t.flatMap (escaped false) ++ .scalar '"' :: rest) = .ok (t, rest) := by
  induction t with
  | nil => simp [readString]
  | cons c t ih =>
    rw [List.flatMap_cons, List.append_assoc, readString_escaped opening c (by simp), ih]
    rfl

/-! ## Text in ASCII -/

/-- A first half is pending, and settles what was pending before. -/
theorem settleUnit_high (pending : Option Nat) {n : Nat} (h : isHighSurrogate n = true) :
    settleUnit pending n = (pendingText pending, some n) := by
  have hlow : isLowSurrogate n = false := by
    simp only [isHighSurrogate, isLowSurrogate, Bool.and_eq_true, decide_eq_true_eq, Bool.and_eq_false_iff,
      decide_eq_false_iff_not] at h ⊢
    omega
  unfold settleUnit
  cases pending <;> simp only [h, hlow] <;> rfl

/-- A second half is one code point with the first half that is pending. -/
theorem settleUnit_low (h : Nat) {n : Nat} (hn : isLowSurrogate n = true) :
    settleUnit (some h) n = ([CodePoint.ofNat (0x10000 + (h - 0xD800) * 0x400 + (n - 0xDC00))], none) :=
  if_pos hn

/-- A number beyond 16 bits is escaped by the two halves of its surrogate pair. -/
theorem exists_escapeByNumber {n : Nat} (hn : ¬ n < 0x10000) (hlt : n < 0x110000) :
    ∃ high low, escapeByNumber n = escapeUnit high ++ escapeUnit low ∧ isHighSurrogate high = true ∧
      isLowSurrogate low = true ∧ 0x10000 + (high - 0xD800) * 0x400 + (low - 0xDC00) = n := by
  refine ⟨0xD800 + (n - 0x10000) / 0x400, 0xDC00 + (n - 0x10000) % 0x400, if_neg hn, ?_, ?_, by omega⟩
  all_goals
    simp only [isHighSurrogate, isLowSurrogate, Bool.and_eq_true, decide_eq_true_eq]
    omega

/-- The two escapes of a number beyond 16 bits are read as its code point. -/
theorem readString_pair (opening : Nat) (pending : Option Nat) {n : Nat} (hn : ¬ n < 0x10000)
    (hlt : n < 0x110000) {t : Text} (ht : t ≠ []) : readString opening pending (escapeByNumber n ++ t) =
      prepend (pendingText pending ++ [CodePoint.ofNat n]) (readString opening none t) := by
  obtain ⟨high, low, hescape, hhigh, hlow, hnumber⟩ := exists_escapeByNumber hn hlt
  have hunits : high < 0x10000 ∧ low < 0x10000 := by
    simp only [isHighSurrogate, isLowSurrogate, Bool.and_eq_true, decide_eq_true_eq] at hhigh hlow
    omega
  rw [hescape, List.append_assoc, readString_unit opening pending hunits.1 (by simp [escapeUnit]),
    settleUnit_high pending hhigh, readString_unit opening _ hunits.2 ht, settleUnit_low _ hlow, hnumber,
    prepend_prepend]

/-- However a code point is written in ASCII, the reader takes it for its number. -/
theorem readString_ascii_escaped (opening : Nat) (pending : Option Nat) (c : CodePoint) {t : Text}
    (ht : t ≠ []) : readString opening pending (escaped true c ++ t) =
      prepend (settleUnit pending c.toNat).1 (readString opening (settleUnit pending c.toNat).2 t) := by
  have hplain : ∀ r, c.toNat < 0xD800 ∨ 0xDFFF < c.toNat →
      r = prepend (pendingText pending ++ [c]) (readString opening none t) →
      r = prepend (settleUnit pending c.toNat).1 (readString opening (settleUnit pending c.toNat).2 t) := by
    rintro r hc rfl
    obtain ⟨hhigh, hlow⟩ := not_isHalf hc
    rw [settleUnit_of_scalar pending hhigh hlow]
  unfold escaped
  split
  case h_8 hq hb _ _ _ _ _ =>
    split
    · by_cases hc : c.toNat < 0x10000
      · rw [escapeByNumber, if_pos hc, readString_unit opening pending hc ht]
      · have hpair := readString_pair opening pending hc c.toNat_lt ht
        rw [ofNat_toNat] at hpair
        exact hplain _ (.inr (by omega)) hpair
    · next hc =>
      simp only [Bool.true_and, Bool.or_eq_true, decide_eq_true_eq, not_or] at hc
      exact hplain _ (.inl (by omega)) (readString_plain opening pending hq hb hc.1 t)
  all_goals exact hplain _ (.inl (by decide)) (readString_short opening pending rfl t)

theorem settleUnit_none {c : CodePoint} (h : ¬ c.IsHigh) : settleUnit none c.toNat = ([c], none) := by
  have hfalse : isHighSurrogate c.toNat = false := Bool.eq_false_iff.2 h
  simp only [settleUnit, hfalse, ofNat_toNat]
  rfl

/-- A pending half is joined to the code point that follows, or stands alone. -/
theorem paired_pending {pending : Option Nat} (hp : ∀ h ∈ pending, isHighSurrogate h = true) (c : CodePoint)
    (t : Text) : Text.paired (pendingText pending ++ c :: t) =
      (settleUnit pending c.toNat).1 ++ Text.paired (pendingText (settleUnit pending c.toNat).2 ++ t) := by
  have hafter : Text.paired (pendingText (some c.toNat) ++ t) = Text.paired (c :: t) :=
    congrArg (fun d => Text.paired (d :: t)) (ofNat_toNat c)
  cases pending with
  | none =>
    by_cases hhigh : c.IsHigh
    · rw [settleUnit_high none hhigh, hafter]
      rfl
    · rw [settleUnit_none hhigh]
      exact Text.paired_cons hhigh t
  | some h =>
    have hbounds := hp h rfl
    simp only [isHighSurrogate, Bool.and_eq_true, decide_eq_true_eq] at hbounds
    have hnumber : (CodePoint.ofNat h).toNat = h := CodePoint.toNat_ofNat (by omega)
    by_cases hlow : c.IsLow
    · have hhigh : (CodePoint.ofNat h).IsHigh := by
        rw [CodePoint.IsHigh, hnumber]
        exact hp h rfl
      have hjoin : Text.paired (CodePoint.ofNat h :: c :: t) = (CodePoint.ofNat h).join c :: Text.paired t :=
        if_pos ⟨hhigh, hlow⟩
      rw [CodePoint.join, hnumber] at hjoin
      rw [settleUnit_low h hlow]
      exact hjoin
    · have halone : Text.paired (pendingText (some h) ++ c :: t) = CodePoint.ofNat h :: Text.paired (c :: t) :=
        if_neg fun hpair => hlow hpair.2
      rw [halone]
      by_cases hhigh : c.IsHigh
      · rw [settleUnit_high _ hhigh, hafter]
        rfl
      · rw [settleUnit_of_scalar _ hhigh hlow, Text.paired_cons hhigh]
        rfl

/-- The half that is pending after a code point is a first half. -/
theorem isHighSurrogate_settleUnit (pending : Option Nat) (n : Nat) :
    ∀ h ∈ (settleUnit pending n).2, isHighSurrogate h = true := by
  intro h hh
  unfold settleUnit at hh
  split at hh <;> split at hh <;> grind

/-- The ASCII body of a string is read after a pending half: a partner joins it, all else leaves it alone. -/
theorem readString_ascii_pending (opening : Nat) (pending : Option Nat) (t rest : Text)
    (hp : ∀ h ∈ pending, isHighSurrogate h = true) :
    readString opening pending (t.flatMap (escaped true) ++ .scalar '"' :: rest) =
      .ok (Text.paired (pendingText pending ++ t), rest) := by
  induction t generalizing pending with
  | nil =>
    rw [List.append_nil]
    cases pending <;> simp [readString] <;> rfl
  | cons c t ih =>
    rw [List.flatMap_cons, List.append_assoc, readString_ascii_escaped opening pending c (by simp),
      ih _ (isHighSurrogate_settleUnit pending c.toNat), paired_pending hp]
    rfl

/-- A string in ASCII is read with its pairs joined. -/
theorem readString_ascii (opening : Nat) (t rest : Text) :
    readString opening none (t.flatMap (escaped true) ++ .scalar '"' :: rest) = .ok (t.paired, rest) :=
  readString_ascii_pending opening none t rest nofun

end Json

end RowQuery
