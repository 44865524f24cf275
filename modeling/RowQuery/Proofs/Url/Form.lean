import RowQuery.Proofs.Text.Utf8
import RowQuery.Url.Form

/-!
# Form encoding read back

An encoded octet is read as the octet that it stands for, whichever of its three forms it has, and
no encoded text holds a separator. So the fields of a query string are read back when their names
and values hold no lone surrogate half.
-/

namespace RowQuery

open Utf8 (feed)

set_option autoImplicit false

/-! ## Octets -/

namespace Percent

theorem toNat_ofNat {n : Nat} (h : n < 256) : (Char.ofNat n).toNat = n := by
  rw [Char.ofNat, dif_pos (Or.inl (by omega))]
  rfl

/-- An octet that stands for itself is no character that does not. -/
theorem ofNat_ne_of_isPlain {b : UInt8} (hb : isPlain b = true) {c : Char}
    (hc : isPlain (UInt8.ofNat c.toNat) = false) : Char.ofNat b.toNat ≠ c := by
  rintro rfl
  rw [toNat_ofNat b.toNat_lt, UInt8.ofNat_toNat, hb] at hc
  cases hc

theorem toNat_lt_of_isPlain {b : UInt8} (h : isPlain b = true) : b.toNat < 0x80 :=
  UInt8.lt_iff_toNat_lt.1 (of_decide_eq_true (Bool.and_eq_true_iff.1 h).1)

theorem hexValue_hexDigit : ∀ n < 16, CodePoint.hexValue? (.scalar (hexDigit n)) = some n := by
  decide

theorem hexDigit_ne {n : Nat} (hn : n < 16) {c : Char}
    (hc : CodePoint.hexValue? (.scalar c) = none) : hexDigit n ≠ c := by
  rintro rfl
  cases (hexValue_hexDigit n hn).symm.trans hc

theorem octet_hexDigit (b : UInt8) :
    octet? (.scalar (hexDigit (b.toNat / 16))) (.scalar (hexDigit (b.toNat % 16))) =
      some b.toNat := by
  have hb := b.toNat_lt
  have hsum : b.toNat / 16 * 16 + b.toNat % 16 = b.toNat := by omega
  simp [octet?, hexValue_hexDigit _ (show b.toNat / 16 < 16 by omega),
    hexValue_hexDigit _ (show b.toNat % 16 < 16 by omega), hsum]

/-- A code point of ASCII that starts no escape is an octet. -/
theorem decodeFrom_ascii (pending : Option Utf8.Pending) {c : Char} (hp : c ≠ '%')
    (hc : c.toNat < 0x80) (t : Text) :
    decodeFrom pending (.scalar c :: t) =
      Text.ofChars (Utf8.step pending c.toNat).1 ++ decodeFrom (Utf8.step pending c.toNat).2 t := by
  rw [decodeFrom]
  · exact if_pos hc
  · simp [hp]

theorem decodeFrom_escape (pending : Option Utf8.Pending) (b : UInt8) (t : Text) :
    decodeFrom pending (.scalar '%' :: .scalar (hexDigit (b.toNat / 16)) ::
        .scalar (hexDigit (b.toNat % 16)) :: t) =
      Text.ofChars (Utf8.step pending b.toNat).1 ++ decodeFrom (Utf8.step pending b.toNat).2 t := by
  rw [decodeFrom, octet_hexDigit]

/-- The two forms of an encoded octet. -/
theorem encodeOctet_cases (b : UInt8) :
    isPlain b = true ∧ encodeOctet b = [Char.ofNat b.toNat] ∨
      encodeOctet b = ['%', hexDigit (b.toNat / 16), hexDigit (b.toNat % 16)] := by
  unfold encodeOctet
  split
  · next h => exact .inl ⟨h, rfl⟩
  · exact .inr rfl

/-- An encoded octet is read as that octet. -/
theorem decodeFrom_encodeOctet (pending : Option Utf8.Pending) (b : UInt8) (t : Text) :
    decodeFrom pending (Text.ofChars (encodeOctet b) ++ t) =
      Text.ofChars (Utf8.step pending b.toNat).1 ++ decodeFrom (Utf8.step pending b.toNat).2 t := by
  rcases encodeOctet_cases b with ⟨hplain, he⟩ | he <;> rw [he]
  · have hpercent : Char.ofNat b.toNat ≠ '%' := ofNat_ne_of_isPlain hplain (by decide)
    have hnat := toNat_ofNat b.toNat_lt
    have hascii := toNat_lt_of_isPlain hplain
    have hread := decodeFrom_ascii pending hpercent (by omega) t
    rwa [hnat] at hread
  · exact decodeFrom_escape pending b t

/-- No form of an octet holds a character that neither stands for itself nor is part of an escape. -/
theorem notMem_encodeOctet {c : Char} (hplain : isPlain (UInt8.ofNat c.toNat) = false)
    (hhex : CodePoint.hexValue? (.scalar c) = none) (hsign : c ≠ '%') (b : UInt8) :
    c ∉ encodeOctet b := by
  have hb := b.toNat_lt
  rcases encodeOctet_cases b with ⟨hb', he⟩ | he <;> rw [he]
  · exact fun hmem => ofNat_ne_of_isPlain hb' hplain (List.mem_singleton.1 hmem).symm
  · have hdigit : ∀ n < 16, hexDigit n ≠ c := fun n hn => hexDigit_ne hn hhex
    have h1 := hdigit (b.toNat / 16) (by omega)
    have h2 := hdigit (b.toNat % 16) (by omega)
    simp [hsign, h1.symm, h2.symm]

end Percent

namespace Form

theorem plusToSpace_append (s t : Text) : plusToSpace (s ++ t) = plusToSpace s ++ plusToSpace t :=
  List.map_append

theorem plusToSpace_of_notMem {cs : List Char} (h : '+' ∉ cs) :
    plusToSpace (Text.ofChars cs) = Text.ofChars cs := by
  refine (List.map_congr_left fun c hc => ?_).trans (List.map_id _)
  obtain ⟨d, hd, rfl⟩ := List.mem_map.1 hc
  have hne : CodePoint.scalar d ≠ .scalar '+' := fun he => h (CodePoint.scalar.inj he ▸ hd)
  exact if_neg hne

/-- An encoded octet is a plus sign, or it has the form that it has outside of query strings. -/
theorem encodeOctet_cases (b : UInt8) :
    b = 0x20 ∧ encodeOctet b = ['+'] ∨ encodeOctet b = Percent.encodeOctet b := by
  unfold encodeOctet
  split
  · next h => exact .inl ⟨h, rfl⟩
  · exact .inr rfl

/-- An encoded octet is read as that octet. -/
theorem decodeFrom_encodeOctet (pending : Option Utf8.Pending) (b : UInt8) (t : Text) :
    Percent.decodeFrom pending (plusToSpace (Text.ofChars (encodeOctet b)) ++ t) =
      Text.ofChars (Utf8.step pending b.toNat).1 ++
        Percent.decodeFrom (Utf8.step pending b.toNat).2 t := by
  rcases encodeOctet_cases b with ⟨rfl, he⟩ | he <;> rw [he]
  · exact Percent.decodeFrom_ascii pending (by decide) (by decide) t
  · rw [plusToSpace_of_notMem (Percent.notMem_encodeOctet (by decide) rfl (by decide) b)]
    exact Percent.decodeFrom_encodeOctet pending b t

/-- Encoded octets are decoded to what they settle, and may leave a character pending. -/
theorem decodeFrom_encodeOctets (pending : Option Utf8.Pending) (bs : List UInt8) (t : Text) :
    Percent.decodeFrom pending (plusToSpace (encodeOctets bs) ++ t) =
      Text.ofChars (feed pending bs).1 ++ Percent.decodeFrom (feed pending bs).2 t := by
  induction bs generalizing pending with
  | nil => rfl
  | cons b bs ih =>
    have hcons : encodeOctets (b :: bs) = Text.ofChars (encodeOctet b) ++ encodeOctets bs := by
      simp [encodeOctets, Text.ofChars]
    rw [hcons, plusToSpace_append, List.append_assoc, decodeFrom_encodeOctet, ih, feed]
    simp [Text.ofChars]

/-- A text is read back from its encoding. -/
theorem decodeText_encodeOctets (cs : List Char) :
    decodeText (encodeOctets (Utf8.encode cs)) = Text.ofChars cs := by
  have h := decodeFrom_encodeOctets none (Utf8.encode cs) []
  rw [List.append_nil, Utf8.feed_encode] at h
  exact h.trans (List.append_nil _)

/-- A character that no form of an octet has stands in no encoded text. -/
theorem notMem_encodeOctets {c : Char} (hplain : Percent.isPlain (UInt8.ofNat c.toNat) = false)
    (hhex : CodePoint.hexValue? (.scalar c) = none) (hsign : c ≠ '+' ∧ c ≠ '%') (bs : List UInt8) :
    CodePoint.scalar c ∉ encodeOctets bs := by
  intro hmem
  obtain ⟨d, hd, he⟩ := List.mem_map.1 hmem
  cases he
  obtain ⟨b, -, hb⟩ := List.mem_flatMap.1 hd
  rcases encodeOctet_cases b with ⟨-, he⟩ | he <;> rw [he] at hb
  · exact hsign.1 (List.mem_singleton.1 hb)
  · exact Percent.notMem_encodeOctet hplain hhex hsign.2 b hb

/-- No separator stands in an encoded text. -/
theorem separator_notMem_encodeOctets {c : Char} (hc : c = '&' ∨ c = '=' ∨ c = '?')
    (bs : List UInt8) : CodePoint.scalar c ∉ encodeOctets bs := by
  rcases hc with rfl | rfl | rfl <;> exact notMem_encodeOctets (by decide) rfl (by decide) bs

theorem exists_chars {t : Text} (h : t.isWellFormed = true) : ∃ cs, t = Text.ofChars cs := by
  induction t with
  | nil => exact ⟨[], rfl⟩
  | cons c t ih =>
    obtain ⟨hc, ht⟩ := Bool.and_eq_true_iff.1 h
    obtain ⟨cs, rfl⟩ := ih ht
    cases c with
    | scalar c => exact ⟨c :: cs, rfl⟩
    | lone => cases hc

/-- A text without lone surrogate halves is encoded without separators, and read back. -/
theorem encodeText_ok {t : Text} (h : t.isWellFormed = true) :
    ∃ bs, encodeText t = .ok (encodeOctets bs) ∧ decodeText (encodeOctets bs) = t := by
  obtain ⟨cs, rfl⟩ := exists_chars h
  refine ⟨Utf8.encode cs, ?_, decodeText_encodeOctets cs⟩
  unfold encodeText Percent.characters
  rw [Text.chars?_ofChars]
  rfl

end Form

/-! ## Separators -/

namespace Text

theorem split_append {separator : CodePoint} {t : Text} (h : separator ∉ t) (rest : Text) :
    split separator (t ++ separator :: rest) = t :: split separator rest := by
  induction t with
  | nil => rw [List.nil_append, split, if_pos rfl]
  | cons c t ih =>
    obtain ⟨hc, ht⟩ := not_or.1 (mt List.mem_cons.2 h)
    rw [List.cons_append, split, if_neg (Ne.symm hc), ih ht]

theorem split_self {separator : CodePoint} {t : Text} (h : separator ∉ t) :
    split separator t = [t] := by
  induction t with
  | nil => rfl
  | cons c t ih =>
    obtain ⟨hc, ht⟩ := not_or.1 (mt List.mem_cons.2 h)
    rw [split, if_neg (Ne.symm hc), ih ht]

/-- Pieces without the separator are split where they were joined. -/
theorem split_join {separator : CodePoint} {piece : Text} {pieces : List Text}
    (h : ∀ p ∈ piece :: pieces, separator ∉ p) :
    split separator (join [separator] (piece :: pieces)) = piece :: pieces := by
  induction pieces generalizing piece with
  | nil =>
    rw [join, List.intercalate_singleton]
    exact split_self (h piece List.mem_cons_self)
  | cons q pieces ih =>
    rw [join, List.intercalate_cons_cons, List.append_assoc, List.singleton_append,
      split_append (h piece List.mem_cons_self)]
    exact congrArg _ (ih fun p hp => h p (List.mem_cons_of_mem _ hp))

theorem splitFirst_append {separator : CodePoint} {t : Text} (h : separator ∉ t) (rest : Text) :
    splitFirst? separator (t ++ separator :: rest) = some (t, rest) := by
  induction t with
  | nil => rw [List.nil_append, splitFirst?, if_pos rfl]
  | cons c t ih =>
    obtain ⟨hc, ht⟩ := not_or.1 (mt List.mem_cons.2 h)
    rw [List.cons_append, splitFirst?, if_neg (Ne.symm hc), ih ht]
    rfl

end Text

namespace Form

/-! ## Fields -/

/-- The text of a field can be told from the fields around it. -/
structure IsClosed (t : Text) : Prop where
  separator : CodePoint.scalar '&' ∉ t
  head : t.head? ≠ some (.scalar '?')
  nonempty : t ≠ []

/-- A field of two well-formed texts is encoded, and read back. -/
theorem encodeField_ok {field : Text × Text} (hn : field.1.isWellFormed = true)
    (hv : field.2.isWellFormed = true) :
    ∃ t, encodeField (.text field.1, field.2) = .ok t ∧ decodeField t = field ∧ IsClosed t := by
  obtain ⟨ns, hns, hname⟩ := encodeText_ok hn
  obtain ⟨vs, hvs, hvalue⟩ := encodeText_ok hv
  have hsep : ∀ {c : Char}, c = '&' ∨ c = '=' ∨ c = '?' →
      ∀ bs, CodePoint.scalar c ∉ encodeOctets bs :=
    fun hc bs => separator_notMem_encodeOctets hc bs
  refine ⟨encodeOctets ns ++ .scalar '=' :: encodeOctets vs, ?_, ?_, ?_, ?_, ?_⟩
  · have hencode : encodeName (.text field.1) = encodeText field.1 := rfl
    unfold encodeField
    rw [hencode, hns, hvs]
    exact congrArg Except.ok (List.append_assoc _ _ _)
  · unfold decodeField
    rw [Text.splitFirst_append (hsep (.inr (.inl rfl)) ns)]
    dsimp only
    rw [hname, hvalue]
  · intro hmem
    rcases List.mem_append.1 hmem with h | h
    · exact hsep (.inl rfl) ns h
    · rcases List.mem_cons.1 h with h | h
      · cases h
      · exact hsep (.inl rfl) vs h
  · -- The first code point is one of the name, or the equals sign of an empty name.
    cases hc : encodeOctets ns with
    | nil => exact nofun
    | cons c cs =>
      rintro ⟨⟩
      exact hsep (.inr (.inr rfl)) ns (hc ▸ List.mem_cons_self)
  · exact List.append_ne_nil_of_right_ne_nil _ (List.cons_ne_nil _ _)

theorem encodeFields_ok {fields : List (Text × Text)}
    (h : ∀ f ∈ fields, f.1.isWellFormed = true ∧ f.2.isWellFormed = true) :
    ∃ ts, (fields.map fun f => (Value.text f.1, f.2)).mapM encodeField = .ok ts ∧
      ts.map decodeField = fields ∧ ∀ t ∈ ts, IsClosed t := by
  induction fields with
  | nil => exact ⟨[], rfl, rfl, nofun⟩
  | cons f fields ih =>
    obtain ⟨ts, hts, hmap, hall⟩ := ih fun g hg => h g (List.mem_cons_of_mem _ hg)
    obtain ⟨hn, hv⟩ := h f List.mem_cons_self
    obtain ⟨t, ht, hf, hc⟩ := encodeField_ok hn hv
    refine ⟨t :: ts, ?_, by rw [List.map_cons, hf, hmap], ?_⟩
    · rw [List.map_cons, List.mapM_cons, ht, hts]
      rfl
    · intro u hu
      rcases List.mem_cons.1 hu with rfl | hu
      · exact hc
      · exact hall u hu

/-- Closed texts that are joined are the fields that the reader finds. -/
theorem decode_join {ts : List Text} (h : ∀ t ∈ ts, IsClosed t) :
    decode (Text.join [.scalar '&'] ts) = ts.map decodeField := by
  cases ts with
  | nil => rfl
  | cons t ts =>
    obtain ⟨hsep, hhead, hne⟩ := h t List.mem_cons_self
    have hbody : (Text.join [.scalar '&'] (t :: ts)).dropWhile (fun c => decide (c = .scalar '?')) =
        Text.join [.scalar '&'] (t :: ts) := by
      cases t with
      | nil => exact absurd rfl hne
      | cons c t =>
        have hc : c ≠ .scalar '?' := fun he => hhead (congrArg some he)
        have hstart : ∃ u, Text.join [.scalar '&'] ((c :: t) :: ts) = c :: u := by
          cases ts with
          | nil => exact ⟨t, List.intercalate_singleton⟩
          | cons q ts => exact ⟨_, List.intercalate_cons_cons⟩
        obtain ⟨u, hu⟩ := hstart
        rw [hu]
        exact List.dropWhile_cons_of_neg (by simp [hc])
    have hfilter : (t :: ts).filter (fun p => !p.isEmpty) = t :: ts :=
      List.filter_eq_self.2 fun p hp => by simp [(h p hp).nonempty]
    unfold decode
    dsimp only
    rw [hbody, Text.split_join fun p hp => (h p hp).separator, hfilter]

/-- Fields without lone surrogate halves are read back from their query string. -/
theorem decode_encode {fields : List (Text × Text)}
    (h : ∀ f ∈ fields, f.1.isWellFormed = true ∧ f.2.isWellFormed = true) :
    ∃ t, encode (fields.map fun f => (.text f.1, f.2)) = .ok t ∧ decode t = fields := by
  obtain ⟨ts, hts, hmap, hall⟩ := encodeFields_ok h
  refine ⟨Text.join [.scalar '&'] ts, ?_, (decode_join hall).trans hmap⟩
  unfold encode
  rw [hts]
  rfl

end Form

end RowQuery
