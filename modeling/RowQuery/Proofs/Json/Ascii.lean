import RowQuery.Proofs.Json.Wire

/-!
# Text in ASCII

The layout of log records escapes whatever is not printable ASCII. Main statement: the text of data in it is
printable ASCII, so it stands on one line.
-/

namespace RowQuery.Json

set_option autoImplicit false

/-- A printable character of ASCII; the space is the only blank among them. -/
def IsPrintable (c : CodePoint) : Prop := 0x20 ≤ c.toNat ∧ c.toNat < 0x7F

instance (c : CodePoint) : Decidable (IsPrintable c) := inferInstanceAs (Decidable (_ ∧ _))

theorem IsGraphic.isPrintable {c : CodePoint} (h : IsGraphic c) : IsPrintable c := ⟨Nat.le_of_lt h.1, h.2⟩

/-! ## Escapes -/

theorem isPrintable_of_hexValue {c : CodePoint} (h : c.hexValue?.isSome = true) : IsPrintable c := by
  unfold CodePoint.hexValue? at h
  unfold IsPrintable
  dsimp only at h
  split at h
  · omega
  · split at h
    · omega
    · split at h
      · omega
      · cases h

theorem isPrintable_escapeUnit {n : Nat} (hn : n < 0x10000) : ∀ c ∈ escapeUnit n, IsPrintable c := by
  obtain ⟨x, y, z, w, hdigits, hunit⟩ := exists_hexUnit hn
  obtain ⟨hx, hy, hz, hw⟩ := hexValues_of_hexUnit (Option.isSome_of_eq_some hunit)
  rw [escapeUnit, hdigits]
  simp only [List.forall_mem_cons, List.not_mem_nil, false_implies, implies_true, and_true]
  exact ⟨by decide, by decide, isPrintable_of_hexValue hx, isPrintable_of_hexValue hy,
    isPrintable_of_hexValue hz, isPrintable_of_hexValue hw⟩

theorem isPrintable_escapeByNumber (c : CodePoint) : ∀ d ∈ escapeByNumber c.toNat, IsPrintable d := by
  by_cases hc : c.toNat < 0x10000
  · rw [escapeByNumber, if_pos hc]
    exact isPrintable_escapeUnit hc
  · obtain ⟨high, low, hescape, hhigh, hlow, -⟩ := exists_escapeByNumber hc c.toNat_lt
    simp only [isHighSurrogate, isLowSurrogate, Bool.and_eq_true, decide_eq_true_eq] at hhigh hlow
    rw [hescape]
    exact List.forall_mem_append.2
      ⟨isPrintable_escapeUnit (by omega), isPrintable_escapeUnit (by omega)⟩

/-- Whatever a code point is, its escape is printable ASCII. -/
theorem isPrintable_escaped (c : CodePoint) : ∀ d ∈ escaped true c, IsPrintable d := by
  unfold escaped
  split
  case h_8 =>
    split
    · exact isPrintable_escapeByNumber c
    · next hc =>
      simp only [Bool.true_and, Bool.or_eq_true, decide_eq_true_eq, not_or, Nat.not_lt, Nat.not_le] at hc
      exact List.forall_mem_singleton.2 hc
  all_goals decide

theorem isPrintable_quotedText (t : Text) : ∀ c ∈ quotedText true t, IsPrintable c := by
  have hbody : ∀ c ∈ t.flatMap (escaped true), IsPrintable c := fun d hd => by
    obtain ⟨c, -, hc⟩ := List.mem_flatMap.1 hd
    exact isPrintable_escaped c d hc
  exact List.forall_mem_cons.2
    ⟨by decide, List.forall_mem_append.2 ⟨hbody, List.forall_mem_singleton.2 (by decide)⟩⟩

/-! ## Data -/

theorem isPrintable_numeral {t : Text} {j : Json}
    (h : ∀ {rest : Text}, Stops rest → readNumber (t ++ rest) = .ok (j, rest)) : ∀ c ∈ t, IsPrintable c := by
  obtain ⟨m, rfl⟩ := exists_numeral h
  exact fun c hc => (isGraphic_numeral m c hc).1.isPrintable

theorem isPrintable_floatText (x : Binary64) : ∀ c ∈ floatText x, IsPrintable c := by
  cases x with
  | undefined => exact show ∀ c ∈ Text.ofString "NaN", IsPrintable c by decide
  | infinite negative => cases negative <;> decide
  | finite negative rank => exact isPrintable_numeral fun hr => readNumber_floatText rfl hr

mutual

/-- The text of data in the layout of log records is printable ASCII. -/
theorem isPrintable_renderAt (level : Nat) : ∀ j : Json, j.Every Short →
    ∀ c ∈ renderAt record level j, IsPrintable c
  | null, _ => show ∀ c ∈ Text.ofString "null", IsPrintable c by decide
  | bool true, _ => show ∀ c ∈ Text.ofString "true", IsPrintable c by decide
  | bool false, _ => show ∀ c ∈ Text.ofString "false", IsPrintable c by decide
  | array [], _ => show ∀ c ∈ Text.ofString "[]", IsPrintable c by decide
  | object [], _ => show ∀ c ∈ [.scalar '{', .scalar '}'], IsPrintable c by decide
  | int _, h => isPrintable_numeral fun hr => readNumber_ofInt h hr
  | float x, _ => isPrintable_floatText x
  | text t, _ => isPrintable_quotedText t
  | array (j :: js), h => by
    rw [isInline_record.renderAt_array, List.forall_mem_cons, List.forall_mem_append]
    exact ⟨by decide, isPrintable_renderAt (level + 1) j h.1, isPrintable_renderItems level js h.2⟩
  | object ((k, j) :: ms), h => by
    rw [isInline_record.renderAt_object, List.forall_mem_cons, List.forall_mem_append,
      List.forall_mem_append, List.forall_mem_append]
    exact ⟨by decide, isPrintable_quotedText k, by decide, isPrintable_renderAt (level + 1) j h.2.1,
      isPrintable_renderMembers level ms h.2.2⟩

theorem isPrintable_renderItems (level : Nat) : ∀ js : List Json, EveryItem Short js →
    ∀ c ∈ renderItems record level js, IsPrintable c
  | [], _ => show ∀ c ∈ [.scalar ']'], IsPrintable c by decide
  | j :: js, h => by
    rw [isInline_record.renderItems_cons, List.forall_mem_cons, List.forall_mem_append, List.forall_mem_append]
    exact ⟨by decide, by decide, isPrintable_renderAt (level + 1) j h.1, isPrintable_renderItems level js h.2⟩

theorem isPrintable_renderMembers (level : Nat) : ∀ ms : List (Text × Json), EveryMember Short ms →
    ∀ c ∈ renderMembers record level ms, IsPrintable c
  | [], _ => show ∀ c ∈ [.scalar '}'], IsPrintable c by decide
  | (k, j) :: ms, h => by
    rw [isInline_record.renderMembers_cons, List.forall_mem_cons, List.forall_mem_append,
      List.forall_mem_append, List.forall_mem_append, List.forall_mem_append]
    exact ⟨by decide, by decide, isPrintable_quotedText k, by decide,
      isPrintable_renderAt (level + 1) j h.2.1, isPrintable_renderMembers level ms h.2.2⟩

end

end RowQuery.Json
