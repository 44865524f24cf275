import RowQuery.Json.Printer
import RowQuery.Json.Reader
import RowQuery.Proofs.Json.Shape
import RowQuery.Proofs.Number.Shortest

/-!
# Number text read back

The parts of a number are read as they are written, as long as the rest of the text does not
continue them. Main statements: the text of an integer is read as the integer, and the text of a
finite double precision number as that number, negative zero included.
-/

namespace RowQuery.Json

open Binary64 (minus decimalText exponentText)

set_option autoImplicit false

def AllDigits (ds : List Char) : Prop := ∀ c ∈ ds, c.isDigit = true

/-- No digit stands at the start of the text. -/
def StopsDigits (rest : Text) : Prop := ∀ c ∈ rest.head?, isDigit c = false

/-- Nothing at the start of the text continues a number. -/
structure Stops (rest : Text) : Prop where
  digits : StopsDigits rest
  point : rest.head? ≠ some (.scalar '.')
  lower : rest.head? ≠ some (.scalar 'e')
  upper : rest.head? ≠ some (.scalar 'E')

theorem stopsDigits_cons {c : CodePoint} (hc : isDigit c = false) (t : Text) :
    StopsDigits (c :: t) := by
  rintro d ⟨⟩
  exact hc

/-- Digits are taken up to the first character that is none. -/
theorem spanDigits_append {ds : List Char} (hd : AllDigits ds) {rest : Text}
    (hr : StopsDigits rest) : spanDigits (Text.ofChars ds ++ rest) = (ds, rest) := by
  induction ds with
  | nil =>
    cases rest with
    | nil => rfl
    | cons c t =>
      have hc : isDigit c = false := hr c rfl
      simp [spanDigits, Text.ofChars, hc]
  | cons d ds ih =>
    have hdig : isDigit (.scalar d) = true := hd d List.mem_cons_self
    have hrest := ih fun c hc => hd c (List.mem_cons_of_mem _ hc)
    simp only [spanDigits, Prod.mk.injEq] at hrest ⊢
    have hcons : Text.ofChars (d :: ds) ++ rest = .scalar d :: (Text.ofChars ds ++ rest) := rfl
    rw [hcons, List.takeWhile_cons_of_pos hdig, List.dropWhile_cons_of_pos hdig, List.map_cons,
      hrest.1, hrest.2]
    exact ⟨congrArg (· :: ds) (Char.ofNat_toNat d), rfl⟩

/-! ## Parts of numbers -/

theorem allDigits_nil : AllDigits [] := nofun

theorem allDigits_toDigits (n : Nat) : AllDigits (Nat.toDigits 10 n) :=
  fun _ hc => Nat.isDigit_of_mem_toDigits (by decide) (by decide) hc

theorem allDigits_zeros (n : Nat) : AllDigits (List.replicate n '0') :=
  fun c hc => by rw [List.eq_of_mem_replicate hc]; rfl

theorem allDigits_zero : AllDigits ['0'] := allDigits_zeros 1

theorem AllDigits.append {ds es : List Char} (hd : AllDigits ds) (he : AllDigits es) :
    AllDigits (ds ++ es) :=
  fun c hc => (List.mem_append.1 hc).elim (hd c) (he c)

theorem readWhole_append {ds : List Char} (hd : AllDigits ds) {rest : Text} (hr : StopsDigits rest)
    (hne : ds ≠ []) (hlead : ds.head? = some '0' → ds = ['0']) :
    readWhole (Text.ofChars ds ++ rest) = some (ds, rest) := by
  cases ds with
  | nil => exact absurd rfl hne
  | cons d ds =>
    by_cases h0 : d = '0'
    · rw [h0] at hlead ⊢
      rw [hlead rfl]
      rfl
    · unfold readWhole
      split
      · next heq =>
        cases heq
        exact absurd rfl h0
      · rw [spanDigits_append hd hr]
        rfl

theorem readFraction_point {ds : List Char} (hd : AllDigits ds) {rest : Text}
    (hr : StopsDigits rest) (hne : ds ≠ []) :
    readFraction (.scalar '.' :: (Text.ofChars ds ++ rest)) = (some ds, rest) := by
  simp only [readFraction, spanDigits_append hd hr, List.isEmpty_iff, hne, if_false]

theorem readFraction_none {rest : Text} (h : rest.head? ≠ some (.scalar '.')) :
    readFraction rest = (none, rest) := by
  unfold readFraction
  split
  · exact absurd rfl h
  · rfl

theorem readExponent_none {rest : Text} (hl : rest.head? ≠ some (.scalar 'e'))
    (hu : rest.head? ≠ some (.scalar 'E')) : readExponent rest = (none, rest) := by
  unfold readExponent
  split
  · next c t =>
    refine if_neg ?_
    rintro (rfl | rfl)
    · exact hl rfl
    · exact hu rfl
  · rfl

theorem ofChars_append (cs ds : List Char) :
    Text.ofChars (cs ++ ds) = Text.ofChars cs ++ Text.ofChars ds := List.map_append

theorem ofChars_zeros (n : Nat) :
    Text.ofChars (List.replicate n '0') = List.replicate n (.scalar '0') := List.map_replicate

/-- Zeros in front do not change the value of digits. -/
theorem ofDigitChars_zeros_append (n : Nat) (ds : List Char) :
    Nat.ofDigitChars 10 (List.replicate n '0' ++ ds) 0 = Nat.ofDigitChars 10 ds 0 := by
  rw [Nat.ofDigitChars_append, Nat.ofDigitChars_replicate_zero, Nat.mul_zero]

/-- An exponent as it is written is read with its sign. -/
theorem readExponent_exponentText (e : Int) {rest : Text} (hr : StopsDigits rest) :
    readExponent (exponentText e ++ rest) = (some e, rest) := by
  have hpad : ∃ k, Text.padStart 2 (.scalar '0') (Text.ofNat e.natAbs) =
      Text.ofChars (List.replicate k '0' ++ Nat.toDigits 10 e.natAbs) :=
    ⟨2 - (Text.ofNat e.natAbs).length, by rw [ofChars_append, ofChars_zeros]; rfl⟩
  obtain ⟨k, hpad⟩ := hpad
  have hspan := spanDigits_append ((allDigits_zeros k).append (allDigits_toDigits e.natAbs)) hr
  have hvalue :
      Nat.ofDigitChars 10 (List.replicate k '0' ++ Nat.toDigits 10 e.natAbs) 0 = e.natAbs := by
    rw [ofDigitChars_zeros_append, Nat.ofDigitChars_ten_toDigits]
  have hne : (List.replicate k '0' ++ Nat.toDigits 10 e.natAbs).isEmpty = false := by simp
  unfold exponentText
  rw [hpad]
  by_cases he : e < 0
  · simp only [he, if_true, List.cons_append, readExponent, hspan, hvalue, hne]
    have hsign : -(e.natAbs : Int) = e := by omega
    simp only [hsign, true_or, if_true, Bool.false_eq_true, if_false]
  · simp only [he, if_false, List.cons_append, readExponent, hspan, hvalue, hne]
    have hsign : (e.natAbs : Int) = e := by omega
    simp only [hsign, true_or, if_true, Bool.false_eq_true, if_false]

/-! ## Integers -/

theorem toDigits_head {n : Nat} (h : (Nat.toDigits 10 n).head? = some '0') :
    Nat.toDigits 10 n = ['0'] := by
  induction n using Nat.base_induction 10 (by decide) with
  | single m hm =>
    rw [Nat.toDigits_of_lt_base hm] at h ⊢
    rw [Option.some.inj h]
  | digit m k hk hm ih =>
    rw [← Nat.toDigits_append_toDigits (by decide) hm hk, List.head?_append,
      List.head?_eq_some_head Nat.toDigits_ne_nil] at h
    have hm0 := congrArg (Nat.ofDigitChars 10 · 0) (ih (by rw [← h, List.head?_eq_some_head]; rfl))
    rw [Nat.ofDigitChars_ten_toDigits] at hm0
    exact absurd hm0 (Nat.ne_of_gt hm)

theorem readWhole_ofNat (n : Nat) {rest : Text} (hr : StopsDigits rest) :
    readWhole (Text.ofNat n ++ rest) = some (Nat.toDigits 10 n, rest) :=
  readWhole_append (allDigits_toDigits n) hr Nat.toDigits_ne_nil toDigits_head

/-- A number from its parts; it is an integer when it has a whole part alone. -/
theorem readNumber_parts (negative : Bool) {unsigned afterWhole afterFraction rest : Text}
    {whole : List Char} {fraction : Option (List Char)} {exponent : Option Int}
    (hw : readWhole unsigned = some (whole, afterWhole))
    (hf : readFraction afterWhole = (fraction, afterFraction))
    (he : readExponent afterFraction = (exponent, rest)) :
    readNumber (minus negative ++ unsigned) =
      if fraction = none ∧ exponent = none then
        if Literal.maxIntDigits < whole.length then .error (.tooManyDigits whole.length)
        else
          let n : Int := Nat.ofDigitChars 10 whole 0
          .ok (int (if negative then -n else n), rest)
      else
        .ok (float (Decimal.toBinary64 negative
          (Decimal.ofParts whole (fraction.getD []) (exponent.getD 0))), rest) := by
  have hd : ∀ t, unsigned ≠ .scalar '-' :: t := by
    rintro t rfl
    cases hw
  cases negative with
  | true =>
    change readNumber (.scalar '-' :: unsigned) = _
    simp only [readNumber, hw, hf, he]
    cases fraction <;> cases exponent <;> rfl
  | false =>
    change readNumber unsigned = _
    unfold readNumber
    split
    next negative unsigned' heq =>
      split at heq
      · exact absurd rfl (hd _)
      · cases heq
        simp only [hw, hf, he]
        cases fraction <;> cases exponent <;> rfl

theorem ofInt_eq (n : Int) : Text.ofInt n = minus (n < 0) ++ Text.ofNat n.natAbs := by
  cases n with
  | ofNat n => rfl
  | negSucc n =>
    rw [decide_eq_true (Int.negSucc_lt_zero n)]
    rfl

theorem length_toDigits_le {n : Nat} (h : Decimal.length n ≤ Literal.maxIntDigits) :
    (Nat.toDigits 10 n).length ≤ Literal.maxIntDigits := by
  unfold Decimal.length at h
  split at h
  · next h0 =>
    rw [h0]
    decide
  · exact h

/-- An integer with a text is read back. -/
theorem readNumber_ofInt {n : Int} (hn : Short (int n)) {rest : Text} (hr : Stops rest) :
    readNumber (Text.ofInt n ++ rest) = .ok (int n, rest) := by
  have hlen : ¬ Literal.maxIntDigits < (Nat.toDigits 10 n.natAbs).length :=
    Nat.not_lt.2 (length_toDigits_le hn)
  rw [ofInt_eq, List.append_assoc, readNumber_parts _ (readWhole_ofNat _ hr.digits)
    (readFraction_none hr.point) (readExponent_none hr.lower hr.upper), if_pos ⟨rfl, rfl⟩,
    if_neg hlen, Nat.ofDigitChars_ten_toDigits]
  have hsign : (if decide (n < 0) = true then -(n.natAbs : Int) else n.natAbs) = n := by
    split
    · next h =>
      rw [decide_eq_true_iff] at h
      omega
    · next h =>
      rw [decide_eq_true_iff] at h
      omega
  exact congrArg (fun m => Except.ok (int m, rest)) hsign

/-! ## Double precision numbers -/

theorem stopsDigits_point (t : Text) : StopsDigits (.scalar '.' :: t) := stopsDigits_cons rfl t

theorem stopsDigits_exponentText (e : Int) (t : Text) : StopsDigits (exponentText e ++ t) :=
  stopsDigits_cons rfl _

/-- A number with a fraction is read as double precision. -/
theorem readNumber_point (negative : Bool) {whole fraction : List Char} (hw : AllDigits whole)
    (hf : AllDigits fraction) (hwne : whole ≠ []) (hfne : fraction ≠ [])
    (hlead : whole.head? = some '0' → whole = ['0']) {rest : Text} (hr : Stops rest) :
    readNumber (minus negative ++
        (Text.ofChars whole ++ .scalar '.' :: (Text.ofChars fraction ++ rest))) =
      .ok (float ((Decimal.ofParts whole fraction 0).toBinary64 negative), rest) := by
  rw [readNumber_parts negative (readWhole_append hw (stopsDigits_point _) hwne hlead)
    (readFraction_point hf hr.digits hfne) (readExponent_none hr.lower hr.upper), if_neg (by simp)]
  rfl

/-- One digit and an exponent. -/
theorem readNumber_exponent (negative : Bool) {whole : List Char} (hw : AllDigits whole)
    (hwne : whole ≠ []) (hlead : whole.head? = some '0' → whole = ['0']) (e : Int) {rest : Text}
    (hr : Stops rest) :
    readNumber (minus negative ++ (Text.ofChars whole ++ (exponentText e ++ rest))) =
      .ok (float ((Decimal.ofParts whole [] e).toBinary64 negative), rest) := by
  have hpoint : (exponentText e ++ rest).head? ≠ some (.scalar '.') := by
    rintro ⟨⟩
  rw [readNumber_parts negative (readWhole_append hw (stopsDigits_exponentText e rest) hwne hlead)
    (readFraction_none hpoint) (readExponent_exponentText e hr.digits), if_neg (by simp)]
  rfl

theorem readNumber_point_exponent (negative : Bool) {whole fraction : List Char}
    (hw : AllDigits whole) (hf : AllDigits fraction) (hwne : whole ≠ []) (hfne : fraction ≠ [])
    (hlead : whole.head? = some '0' → whole = ['0']) (e : Int) {rest : Text} (hr : Stops rest) :
    readNumber (minus negative ++ (Text.ofChars whole ++
        .scalar '.' :: (Text.ofChars fraction ++ (exponentText e ++ rest)))) =
      .ok (float ((Decimal.ofParts whole fraction e).toBinary64 negative), rest) := by
  rw [readNumber_parts negative (readWhole_append hw (stopsDigits_point _) hwne hlead)
    (readFraction_point hf (stopsDigits_exponentText e rest) hfne)
    (readExponent_exponentText e hr.digits), if_neg (by simp)]
  rfl

/-! ## Decimals in their forms -/

/-- The digits of a positive number, without zeros in front. -/
structure IsNumeral (ds : List Char) (n : Nat) : Prop where
  digits : AllDigits ds
  nonempty : ds ≠ []
  head : ds.head? ≠ some '0'
  value : Nat.ofDigitChars 10 ds 0 = n

theorem isNumeral_toDigits {n : Nat} (hn : n ≠ 0) : IsNumeral (Nat.toDigits 10 n) n where
  digits := allDigits_toDigits n
  nonempty := Nat.toDigits_ne_nil
  head h := hn (by rw [← Nat.ofDigitChars_ten_toDigits (n := n), toDigits_head h]; rfl)
  value := Nat.ofDigitChars_ten_toDigits

variable {ds : List Char} {n : Nat} {rest : Text}

/-- Scientific notation is read as the decimal that it writes. -/
theorem readNumber_scientific (negative : Bool) (h : IsNumeral ds n) (e : Int) (hr : Stops rest) :
    readNumber (minus negative ++
        ((match Text.ofChars ds with
          | first :: [] => [first]
          | first :: rest => first :: .scalar '.' :: rest
          | [] => []) ++ exponentText (ds.length + e - 1) ++ rest)) =
      .ok (float (Decimal.toBinary64 negative ⟨n, e⟩), rest) := by
  obtain ⟨hds, hne, hhead, hvalue⟩ := h
  match ds with
  | [] => exact absurd rfl hne
  | [c] =>
    have hl : [c].head? = some '0' → [c] = ['0'] := fun h => absurd h hhead
    have he : ((1 : Nat) : Int) + e - 1 = e := by omega
    have hparts : Decimal.ofParts [c] [] e = ⟨n, e⟩ := by
      rw [Decimal.ofParts, List.append_nil, hvalue, List.length_nil, Int.natCast_zero, Int.sub_zero]
    have h := readNumber_exponent negative hds hne hl e hr
    rw [hparts] at h
    rw [List.append_assoc, List.length_singleton, he]
    exact h
  | c :: d :: cs =>
    have hl : [c].head? = some '0' → [c] = ['0'] := fun h => absurd h hhead
    have hc : AllDigits [c] := fun a ha => by
      rw [List.mem_singleton.1 ha]
      exact hds c List.mem_cons_self
    have hcs : AllDigits (d :: cs) := fun a ha => hds a (List.mem_cons_of_mem _ ha)
    have hparts :
        Decimal.ofParts [c] (d :: cs) (((c :: d :: cs).length : Nat) + e - 1) = ⟨n, e⟩ := by
      rw [Decimal.ofParts, List.singleton_append, hvalue]
      simp
      omega
    have h := readNumber_point_exponent negative hc hcs (List.cons_ne_nil _ _)
      (List.cons_ne_nil _ _) hl (((c :: d :: cs).length : Nat) + e - 1) hr
    rw [hparts] at h
    rw [List.append_assoc]
    exact h

/-- Zeros between the point and the digits. -/
theorem readNumber_belowOne (negative : Bool) (h : IsNumeral ds n) {e : Int}
    (hpoint : (ds.length : Nat) + e ≤ 0) (hr : Stops rest) :
    readNumber (minus negative ++ (Text.ofString "0." ++
        List.replicate (-((ds.length : Nat) + e)).toNat (.scalar '0') ++ Text.ofChars ds ++ rest)) =
      .ok (float (Decimal.toBinary64 negative ⟨n, e⟩), rest) := by
  have hvalue : Nat.ofDigitChars 10
      (['0'] ++ (List.replicate (-((ds.length : Nat) + e)).toNat '0' ++ ds)) 0 = n := by
    rw [List.singleton_append, Nat.ofDigitChars_cons]
    exact (ofDigitChars_zeros_append _ ds).trans h.value
  have hparts :
      Decimal.ofParts ['0'] (List.replicate (-((ds.length : Nat) + e)).toNat '0' ++ ds) 0 =
        ⟨n, e⟩ := by
    rw [Decimal.ofParts, hvalue, List.length_append, List.length_replicate]
    congr 1
    omega
  have hread := readNumber_point negative allDigits_zero
    ((allDigits_zeros (-((ds.length : Nat) + e)).toNat).append h.digits)
    (List.cons_ne_nil _ _) (List.append_ne_nil_of_right_ne_nil _ h.nonempty) (fun _ => rfl) hr
  have hzero : Text.ofString "0." = [.scalar '0', .scalar '.'] := rfl
  rw [ofChars_append, ofChars_zeros, List.append_assoc] at hread
  rw [← hparts, hzero, List.append_assoc, List.append_assoc]
  exact hread

/-- Zeros between the digits and the point. -/
theorem readNumber_whole (negative : Bool) (h : IsNumeral ds n) {e : Int} (he : 0 ≤ e)
    (hr : Stops rest) :
    readNumber (minus negative ++ (Text.ofChars ds ++
        List.replicate ((ds.length + e).toNat - ds.length) (.scalar '0') ++
          Text.ofString ".0" ++ rest)) =
      .ok (float (Decimal.toBinary64 negative ⟨n, e⟩), rest) := by
  have hk : (ds.length + e).toNat - ds.length = e.toNat := by omega
  have hhead : (ds ++ List.replicate e.toNat '0').head? ≠ some '0' := by
    rw [List.head?_append, List.head?_eq_some_head h.nonempty, Option.some_or,
      ← List.head?_eq_some_head h.nonempty]
    exact h.head
  have hvalue : Nat.ofDigitChars 10 (ds ++ List.replicate e.toNat '0' ++ ['0']) 0 =
      n * 10 ^ (e.toNat + 1) := by
    have hzeros : List.replicate e.toNat '0' ++ ['0'] = List.replicate (e.toNat + 1) '0' :=
      List.replicate_succ'.symm
    rw [List.append_assoc, hzeros, Nat.ofDigitChars_append, h.value,
      Nat.ofDigitChars_replicate_zero, Nat.mul_comm]
  have hparts : (Decimal.ofParts (ds ++ List.replicate e.toNat '0') ['0'] 0).toBinary64 negative =
      Decimal.toBinary64 negative ⟨n, e⟩ := by
    have hexponent : (0 : Int) - ((1 : Nat) : Int) + ((e.toNat + 1 : Nat) : Int) = e := by omega
    rw [Decimal.ofParts, hvalue, Decimal.toBinary64_shift, List.length_singleton, hexponent]
  have hread := readNumber_point negative (h.digits.append (allDigits_zeros e.toNat)) allDigits_zero
    (List.append_ne_nil_of_left_ne_nil h.nonempty _) (List.cons_ne_nil _ _)
    (fun hz => absurd hz hhead) hr
  rw [ofChars_append, ofChars_zeros, List.append_assoc] at hread
  rw [← hparts, hk, List.append_assoc, List.append_assoc]
  exact hread

/-- The point among the digits. -/
theorem readNumber_mixed (negative : Bool) (h : IsNumeral ds n) {e : Int}
    (hpos : 0 < ds.length + e) (he : e < 0) (hr : Stops rest) :
    readNumber (minus negative ++ ((Text.ofChars ds).take (ds.length + e).toNat ++ [.scalar '.'] ++
        (Text.ofChars ds).drop (ds.length + e).toNat ++ rest)) =
      .ok (float (Decimal.toBinary64 negative ⟨n, e⟩), rest) := by
  obtain ⟨p, hp, hp0, hplen⟩ : ∃ p : Nat, ds.length + e = p ∧ 0 < p ∧ p < ds.length :=
    ⟨(ds.length + e).toNat, by omega, by omega, by omega⟩
  rw [hp, Int.toNat_natCast]
  have hhead : (ds.take p).head? ≠ some '0' := by
    rw [List.head?_take, if_neg (Nat.ne_of_gt hp0)]
    exact h.head
  have hparts : Decimal.ofParts (ds.take p) (ds.drop p) 0 = ⟨n, e⟩ := by
    rw [Decimal.ofParts, List.take_append_drop, h.value, List.length_drop]
    congr 1
    omega
  have hwhole : ds.take p ≠ [] := fun hz => by
    have := congrArg List.length hz
    rw [List.length_take, List.length_nil] at this
    omega
  have hfraction : ds.drop p ≠ [] := fun hz => by
    have := congrArg List.length hz
    rw [List.length_drop, List.length_nil] at this
    omega
  have hread := readNumber_point negative (fun c hc => h.digits c (List.mem_of_mem_take hc))
    (fun c hc => h.digits c (List.mem_of_mem_drop hc)) hwhole hfraction
    (fun hz => absurd hz hhead) hr
  have htake : (Text.ofChars ds).take p = Text.ofChars (ds.take p) := List.map_take.symm
  have hdrop : (Text.ofChars ds).drop p = Text.ofChars (ds.drop p) := List.map_drop.symm
  rw [← hparts, ← hread, htake, hdrop, List.append_assoc, List.append_assoc]
  rfl

/-- A positive decimal is read as its nearest number. -/
theorem readNumber_decimalText (negative : Bool) {d : Decimal} (hd : d.digits ≠ 0)
    (hr : Stops rest) : readNumber (minus negative ++ (decimalText d ++ rest)) =
      .ok (float (d.toBinary64 negative), rest) := by
  obtain ⟨n, e⟩ := d
  have h := isNumeral_toDigits hd
  have hpointed : Binary64.pointed ⟨n, e⟩ =
      (Text.ofChars (Nat.toDigits 10 n), (Nat.toDigits 10 n).length + e) := by
    simp [Binary64.pointed, Text.ofNat, Text.ofChars]
  have hlength : (Text.ofChars (Nat.toDigits 10 n)).length = (Nat.toDigits 10 n).length :=
    List.length_map _
  unfold decimalText
  rw [hpointed]
  dsimp only at h ⊢
  rw [hlength]
  split
  · exact readNumber_scientific negative h e hr
  · split
    · next hpoint => exact readNumber_belowOne negative h hpoint hr
    · next hpoint =>
      split
      · next hlen => exact readNumber_whole negative h (by omega) hr
      · next hlen => exact readNumber_mixed negative h (by omega) (by omega) hr

/-- A finite double precision number is read back from its text. -/
theorem readNumber_floatText {x : Binary64} (hx : x.isFinite = true) (hr : Stops rest) :
    readNumber (floatText x ++ rest) = .ok (float x, rest) := by
  cases x with
  | undefined => cases hx
  | infinite => cases hx
  | finite negative rank =>
    change readNumber ((minus negative ++
      if rank.val = 0 then Text.ofString "0.0"
      else decimalText (Decimal.shortest rank)) ++ rest) = _
    rw [List.append_assoc]
    split
    · next h0 =>
      have hread := readNumber_point negative allDigits_zero allDigits_zero
        (List.cons_ne_nil _ _) (List.cons_ne_nil _ _) (fun _ => rfl) hr
      have hzero : (Decimal.ofParts ['0'] ['0'] 0).toBinary64 negative = .finite negative rank := by
        rw [Decimal.toBinary64, if_pos (.inl rfl), Decimal.ofRatio_zero]
        exact congrArg _ (Fin.ext h0.symm)
      rw [hzero] at hread
      exact hread
    · next h0 =>
      have hback := Decimal.toBinary64_shortest rank h0 false
      rw [readNumber_decimalText negative (Decimal.digits_ne_zero h0 hback) hr,
        Decimal.toBinary64_shortest rank h0]

end RowQuery.Json
