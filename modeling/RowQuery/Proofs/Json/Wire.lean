import RowQuery.Proofs.Json.Grammar
import RowQuery.Proofs.Json.RoundTrip

/-!
# Text on the wire

What the compact layout writes, apart from any reader. Main statements: the text of finite data is data in the
strict grammar, and outside of strings there is nothing but graphic ASCII, so no blank of any kind.
-/

namespace RowQuery.Json

open Binary64 (minus)

set_option autoImplicit false

/-! ## Numbers -/

theorem exists_char_of_isDigit {c : CodePoint} (h : isDigit c = true) :
    ∃ d : Char, c = .scalar d ∧ d.isDigit = true := by
  cases c with
  | scalar d => exact ⟨d, rfl, h⟩
  | lone => cases h

theorem eq_of_spanDigits {t rest : Text} {ds : List Char} (h : spanDigits t = (ds, rest)) :
    t = Text.ofChars ds ++ rest ∧ AllDigits ds := by
  obtain ⟨rfl, rfl⟩ := Prod.mk.inj h
  induction t with
  | nil => exact ⟨rfl, allDigits_nil⟩
  | cons c t ih =>
    cases hc : isDigit c with
    | false =>
      rw [List.takeWhile_cons_of_neg (by simp [hc]), List.dropWhile_cons_of_neg (by simp [hc])]
      exact ⟨rfl, allDigits_nil⟩
    | true =>
      obtain ⟨d, rfl, hd⟩ := exists_char_of_isDigit hc
      obtain ⟨ht, hds⟩ := ih rfl
      have hchar : Char.ofNat (CodePoint.scalar d).toNat = d := Char.ofNat_toNat d
      rw [List.takeWhile_cons_of_pos hc, List.dropWhile_cons_of_pos hc, List.map_cons, hchar]
      exact ⟨congrArg (CodePoint.scalar d :: ·) ht, List.forall_mem_cons.2 ⟨hd, hds⟩⟩

/-- The whole part that is read stands at the start of the text. -/
theorem eq_of_readWhole {t rest : Text} {ds : List Char} (h : readWhole t = some (ds, rest)) :
    t = Text.ofChars ds ++ rest ∧ IsWhole ds := by
  unfold readWhole at h
  split at h
  · cases h
    exact ⟨rfl, allDigits_zero, List.cons_ne_nil _ _, fun _ => rfl⟩
  · next hzero =>
    rcases hspan : spanDigits t with ⟨es, after⟩
    rw [hspan] at h
    dsimp only at h
    split at h
    · cases h
    · next hne =>
      cases h
      obtain ⟨rfl, hds⟩ := eq_of_spanDigits hspan
      refine ⟨rfl, hds, fun hnil => hne (List.isEmpty_iff.2 hnil), fun hhead => ?_⟩
      -- Digits that start with a zero are read by the first rule.
      cases ds with
      | nil => cases hhead
      | cons d ds =>
        cases hhead
        exact absurd rfl (hzero _)

theorem eq_of_readFraction {t rest : Text} {ds : Option (List Char)}
    (h : readFraction t = (ds, rest)) :
    t = Numeral.fractionText (ds.getD []) ++ rest ∧ AllDigits (ds.getD []) := by
  unfold readFraction at h
  split at h
  · next after =>
    rcases hspan : spanDigits after with ⟨es, last⟩
    rw [hspan] at h
    dsimp only at h
    split at h
    · cases h
      exact ⟨rfl, allDigits_nil⟩
    · next hne =>
      cases h
      obtain ⟨rfl, hds⟩ := eq_of_spanDigits hspan
      have hfraction : Numeral.fractionText es = .scalar '.' :: Text.ofChars es :=
        if_neg fun hnil => hne (List.isEmpty_iff.2 hnil)
      exact ⟨by rw [Option.getD_some, hfraction, List.cons_append], hds⟩
  · cases h
    exact ⟨rfl, allDigits_nil⟩

theorem eq_of_readExponent {t rest : Text} {n : Option Int} (h : readExponent t = (n, rest)) :
    ∃ e : Option Exponent, t = e.elim [] Exponent.text ++ rest := by
  unfold readExponent at h
  split at h
  · next c after =>
    split at h
    · next hletter =>
      split at h
      next negative unsigned heq =>
      have hsign : ∃ sign : Option Bool, after = Exponent.signText sign ++ unsigned := by
        split at heq <;> cases heq
        · exact ⟨some true, rfl⟩
        · exact ⟨some false, rfl⟩
        · exact ⟨none, rfl⟩
      obtain ⟨sign, rfl⟩ := hsign
      rcases hspan : spanDigits unsigned with ⟨es, last⟩
      rw [hspan] at h
      dsimp only at h
      split at h
      · cases h
        exact ⟨none, rfl⟩
      · next hne =>
        cases h
        obtain ⟨rfl, hds⟩ := eq_of_spanDigits hspan
        have hne : es ≠ [] := fun hnil => hne (List.isEmpty_iff.2 hnil)
        refine ⟨some ⟨decide (c = .scalar 'E'), sign, es, hds, hne⟩, ?_⟩
        rw [Option.elim_some, Exponent.text]
        rcases hletter with rfl | rfl <;> simp
    · cases h
      exact ⟨none, rfl⟩
  · cases h
    exact ⟨none, rfl⟩

/-- What the reader takes for a number is one in the grammar. -/
theorem exists_numeral_of_readNumber {t rest : Text} {j : Json} (h : readNumber t = .ok (j, rest)) :
    ∃ m : Numeral, t = m.text ++ rest := by
  unfold readNumber at h
  split at h
  next negative unsigned heq =>
  have hminus : t = minus negative ++ unsigned := by
    split at heq <;> cases heq <;> rfl
  rw [hminus]
  split at h
  · cases h
  · next whole afterWhole hwhole =>
    obtain ⟨rfl, hw⟩ := eq_of_readWhole hwhole
    split at h
    next fraction afterFraction hfraction =>
    obtain ⟨rfl, hf⟩ := eq_of_readFraction hfraction
    rcases hexponent : readExponent afterFraction with ⟨n, last⟩
    obtain ⟨e, rfl⟩ := eq_of_readExponent hexponent
    rw [hexponent] at h
    have hlast : last = rest := by
      split at h
      · next hparts =>
        cases hparts
        split at h <;> cases h
        rfl
      · next hparts =>
        cases hparts
        cases h
        rfl
    exact ⟨⟨negative, whole, fraction.getD [], e, hw, hf⟩, by simp [Numeral.text, hlast]⟩

/-- The text of an atom that the reader takes for a number is one in the grammar. -/
theorem exists_numeral {t : Text} {j : Json}
    (h : ∀ {rest : Text}, Stops rest → readNumber (t ++ rest) = .ok (j, rest)) :
    ∃ m : Numeral, t = m.text := by
  obtain ⟨m, hm⟩ := exists_numeral_of_readNumber (h stops_nil)
  exact ⟨m, by simpa using hm⟩

/-! ## Strings -/

theorem isBody_control {c : CodePoint} (hc : c.toNat < 0x20) {t : Text} (ht : IsBody t) :
    IsBody (escapeByNumber c.toNat ++ t) := by
  have hbmp : c.toNat < 0x10000 := by omega
  obtain ⟨x, y, z, w, hdigits, hunit⟩ := exists_hexUnit hbmp
  rw [escapeByNumber, if_pos hbmp, escapeUnit, hdigits]
  exact .unit (hunit ▸ rfl) ht

/-- An escaped code point may stand between the quotes of a string. -/
theorem isBody_escaped (c : CodePoint) {t : Text} (ht : IsBody t) :
    IsBody (escaped false c ++ t) := by
  unfold escaped
  split
  case h_8 hquote hslash _ _ _ _ _ =>
    split
    · next hc => exact isBody_control (by simpa using hc) ht
    · next hc => exact .plain (by simpa using hc) hquote hslash ht
  all_goals exact .letter rfl ht

/-- What stands between the quotes of a text on the wire. -/
theorem isBody_flatMap (t : Text) : IsBody (t.flatMap (escaped false)) := by
  induction t with
  | nil => exact .nil
  | cons c t ih =>
    rw [List.flatMap_cons]
    exact isBody_escaped c ih

/-! ## Data -/

theorem renderItems_cons (level : Nat) (j : Json) (js : List Json) :
    renderItems wire level (j :: js) =
      .scalar ',' :: (renderAt wire (level + 1) j ++ renderItems wire level js) :=
  isInline_wire.renderItems_cons level j js

theorem renderMembers_cons (level : Nat) (k : Text) (j : Json) (ms : List (Text × Json)) :
    renderMembers wire level ((k, j) :: ms) =
      .scalar ',' :: (quotedText false k ++ .scalar ':' ::
        (renderAt wire (level + 1) j ++ renderMembers wire level ms)) :=
  isInline_wire.renderMembers_cons level k j ms

theorem renderAt_array (level : Nat) (j : Json) (js : List Json) :
    renderAt wire level (array (j :: js)) =
      .scalar '[' :: (renderAt wire (level + 1) j ++ renderItems wire level js) :=
  isInline_wire.renderAt_array level j js

theorem renderAt_object (level : Nat) (k : Text) (j : Json) (ms : List (Text × Json)) :
    renderAt wire level (object ((k, j) :: ms)) =
      .scalar '{' :: (quotedText false k ++ .scalar ':' ::
        (renderAt wire (level + 1) j ++ renderMembers wire level ms)) :=
  isInline_wire.renderAt_object level k j ms

/-- The elements on the wire after the first one, up to the end of the array. -/
def FollowItems (level : Nat) (js : List Json) : Prop :=
  ∀ (u : Text) (tree : Tree), IsData u tree → ∃ t items,
    u ++ renderItems wire level js = t ++ [.scalar ']'] ∧ AreItems t items

/-- The members on the wire after the first one, up to the end of the object. -/
def FollowMembers (level : Nat) (ms : List (Text × Json)) : Prop :=
  ∀ (u : Text) (member : Text × Tree), IsMember u member → ∃ t members,
    u ++ renderMembers wire level ms = t ++ [.scalar '}'] ∧ AreMembers t members

theorem isMember_wire (k : Text) {t : Text} {tree : Tree} (h : IsData t tree) :
    IsMember (quotedText false k ++ .scalar ':' :: t) (k.flatMap (escaped false), tree) := by
  have hmember := h.isMember (isBody_flatMap k)
  rw [quotedText_append]
  simpa using hmember

mutual

/-- The text of finite data is data in the strict grammar. -/
theorem isData_renderAt (level : Nat) : ∀ j : Json, j.Every Writable →
    ∃ tree, IsData (renderAt wire level j) tree
  | null, _ => ⟨_, .null⟩
  | bool true, _ => ⟨_, .true⟩
  | bool false, _ => ⟨_, .false⟩
  | int n, h => by
    obtain ⟨m, hm⟩ := exists_numeral fun hr => readNumber_ofInt h.1 hr
    rw [renderAt, hm]
    exact ⟨_, .number m⟩
  | float x, h => by
    obtain ⟨m, hm⟩ := exists_numeral fun hr => readNumber_floatText h.2 hr
    rw [renderAt, hm]
    exact ⟨_, .number m⟩
  | text t, _ => ⟨_, .string (isBody_flatMap t)⟩
  | array [], _ => ⟨_, .emptyArray areBlanks_nil⟩
  | array (j :: js), h => by
    obtain ⟨tree, hj⟩ := isData_renderAt (level + 1) j h.1
    obtain ⟨t, items, ht, hitems⟩ := followItems level js h.2 _ _ hj
    rw [renderAt_array, ht]
    exact ⟨_, .array hitems⟩
  | object [], _ => ⟨_, .emptyObject areBlanks_nil⟩
  | object ((k, j) :: ms), h => by
    obtain ⟨tree, hj⟩ := isData_renderAt (level + 1) j h.2.1
    obtain ⟨t, members, ht, hmembers⟩ := followMembers level ms h.2.2 _ _ (isMember_wire k hj)
    rw [List.append_assoc, List.cons_append] at ht
    rw [renderAt_object, ht]
    exact ⟨_, .object hmembers⟩

theorem followItems (level : Nat) : ∀ js : List Json, EveryItem Writable js → FollowItems level js
  | [], _ => fun u _ hu => ⟨u, _, rfl, .last hu.isDocument⟩
  | j :: js, h => fun u _ hu => by
    obtain ⟨tree, hj⟩ := isData_renderAt (level + 1) j h.1
    obtain ⟨t, items, ht, hitems⟩ := followItems level js h.2 _ _ hj
    refine ⟨u ++ .scalar ',' :: t, _, ?_, .more hu.isDocument hitems⟩
    rw [renderItems_cons, ht, List.append_assoc, List.cons_append]

theorem followMembers (level : Nat) : ∀ ms : List (Text × Json), EveryMember Writable ms →
    FollowMembers level ms
  | [], _ => fun u _ hu => ⟨u, _, rfl, .last hu⟩
  | (k, j) :: ms, h => fun u _ hu => by
    obtain ⟨tree, hj⟩ := isData_renderAt (level + 1) j h.2.1
    obtain ⟨t, members, ht, hmembers⟩ := followMembers level ms h.2.2 _ _ (isMember_wire k hj)
    refine ⟨u ++ .scalar ',' :: t, _, ?_, .more hu hmembers⟩
    rw [List.append_assoc, List.cons_append] at ht
    rw [renderMembers_cons, ht, List.append_assoc, List.cons_append]

end

/-! ## Blanks -/

/-- What stands outside of strings in a text. Whether its start is inside of one is given. -/
def outsideStrings : Bool → Text → Text
  | _, [] => []
  | true, .scalar '\\' :: _ :: t => outsideStrings true t
  | true, .scalar '"' :: t => outsideStrings false t
  | true, _ :: t => outsideStrings true t
  | false, .scalar '"' :: t => outsideStrings true t
  | false, c :: t => c :: outsideStrings false t

/-- A code point of ASCII that is neither a blank nor a control character. -/
def IsGraphic (c : CodePoint) : Prop := 0x20 < c.toNat ∧ c.toNat < 0x7F

instance (c : CodePoint) : Decidable (IsGraphic c) := inferInstanceAs (Decidable (_ ∧ _))

/-- All that stands outside of strings is graphic. -/
def Tight (t : Text) : Prop := ∀ c ∈ outsideStrings false t, IsGraphic c

theorem outsideStrings_cons {c : CodePoint} (hc : c ≠ .scalar '"') (t : Text) :
    outsideStrings false (c :: t) = c :: outsideStrings false t := by
  rw [outsideStrings]
  simpa using hc

theorem outsideStrings_inside {c : CodePoint} (hquote : c ≠ .scalar '"') (hslash : c ≠ .scalar '\\')
    (t : Text) : outsideStrings true (c :: t) = outsideStrings true t := by
  rw [outsideStrings]
  all_goals simp [hquote, hslash]

/-- The digits of an escape by number neither end a string nor start an escape. -/
theorem ne_of_hexValue {c : CodePoint} (h : c.hexValue?.isSome = true) :
    c ≠ .scalar '"' ∧ c ≠ .scalar '\\' := by
  refine ⟨?_, ?_⟩ <;> rintro rfl <;> cases h

theorem hexValues_of_hexUnit {a b c d : CodePoint} (h : (hexUnit? a b c d).isSome = true) :
    a.hexValue?.isSome = true ∧ b.hexValue?.isSome = true ∧ c.hexValue?.isSome = true ∧
      d.hexValue?.isSome = true := by
  obtain ⟨n, hn⟩ := Option.isSome_iff_exists.1 h
  simp only [hexUnit?, Option.bind_eq_bind, Option.bind_eq_some_iff] at hn
  obtain ⟨w, ha, x, hb, y, hc, z, hd, -⟩ := hn
  simp [ha, hb, hc, hd]

/-- A string ends at the quote after its body. -/
theorem outsideStrings_body {body : Text} (h : IsBody body) (t : Text) :
    outsideStrings true (body ++ .scalar '"' :: t) = outsideStrings false t := by
  induction h with
  | nil => rfl
  | plain _ hquote hslash _ ih => rw [List.cons_append, outsideStrings_inside hquote hslash, ih]
  | letter _ _ ih => rw [List.cons_append, List.cons_append, outsideStrings, ih]
  | unit hunit _ ih =>
    obtain ⟨ha, hb, hc, hd⟩ := hexValues_of_hexUnit hunit
    simp only [List.cons_append]
    rw [outsideStrings, outsideStrings_inside (ne_of_hexValue ha).1 (ne_of_hexValue ha).2,
      outsideStrings_inside (ne_of_hexValue hb).1 (ne_of_hexValue hb).2,
      outsideStrings_inside (ne_of_hexValue hc).1 (ne_of_hexValue hc).2,
      outsideStrings_inside (ne_of_hexValue hd).1 (ne_of_hexValue hd).2, ih]

namespace Tight

theorem nil : Tight [] := nofun

theorem cons {c : CodePoint} (hc : IsGraphic c) (hquote : c ≠ .scalar '"') {t : Text} (ht : Tight t) :
    Tight (c :: t) := by
  unfold Tight
  rw [outsideStrings_cons hquote]
  exact List.forall_mem_cons.2 ⟨hc, ht⟩

/-- Graphic text without quotes in front changes nothing. -/
theorem append {u : Text} (hu : ∀ c ∈ u, IsGraphic c ∧ c ≠ .scalar '"') {t : Text} (ht : Tight t) :
    Tight (u ++ t) := by
  induction u with
  | nil => exact ht
  | cons c u ih =>
    obtain ⟨hc, hu⟩ := List.forall_mem_cons.1 hu
    exact (ih hu).cons hc.1 hc.2

/-- What stands in a string does not count. -/
theorem quotedText (k : Text) {t : Text} (ht : Tight t) : Tight (Json.quotedText false k ++ t) := by
  unfold Tight
  rw [quotedText_append, outsideStrings, outsideStrings_body (isBody_flatMap k)]
  exact ht

end Tight

theorem isGraphic_digit {c : CodePoint} (h : isDigit c = true) : IsGraphic c ∧ c ≠ .scalar '"' := by
  obtain ⟨d, rfl, hd⟩ := exists_char_of_isDigit h
  refine ⟨?_, ne_of_isDigit h rfl⟩
  simp only [Char.isDigit, ge_iff_le, Bool.and_eq_true, decide_eq_true_eq, UInt32.le_iff_toNat_le] at hd
  exact ⟨Nat.lt_of_lt_of_le (by decide) hd.1, Nat.lt_of_le_of_lt hd.2 (by decide)⟩

theorem isGraphic_numeral (m : Numeral) : ∀ c ∈ m.text, IsGraphic c ∧ c ≠ .scalar '"' := by
  have hmarks : ∀ c ∈ Text.ofString "-+.eE", IsGraphic c ∧ c ≠ .scalar '"' := by decide
  exact fun c hc => (Numeral.isPart_of_mem_text m c hc).elim isGraphic_digit (hmarks c)

mutual

/-- Outside of strings the text of finite data is graphic. -/
theorem tight_renderAt (level : Nat) : ∀ j : Json, j.Every Writable → ∀ {rest : Text}, Tight rest →
    Tight (renderAt wire level j ++ rest)
  | null, _, _, hr => hr.append (u := Text.ofString "null") (by decide)
  | bool true, _, _, hr => hr.append (u := Text.ofString "true") (by decide)
  | bool false, _, _, hr => hr.append (u := Text.ofString "false") (by decide)
  | int n, h, _, hr => by
    obtain ⟨m, hm⟩ := exists_numeral fun hr => readNumber_ofInt h.1 hr
    rw [renderAt, hm]
    exact hr.append (isGraphic_numeral m)
  | float x, h, _, hr => by
    obtain ⟨m, hm⟩ := exists_numeral fun hr => readNumber_floatText h.2 hr
    rw [renderAt, hm]
    exact hr.append (isGraphic_numeral m)
  | text t, _, _, hr => hr.quotedText t
  | array [], _, _, hr => hr.append (u := Text.ofString "[]") (by decide)
  | array (j :: js), h, _, hr => by
    have hitems := tight_renderAt (level + 1) j h.1 (tight_renderItems level js h.2 hr)
    rw [renderAt_array, List.cons_append, List.append_assoc]
    exact hitems.cons (by decide) (by decide)
  | object [], _, _, hr => hr.append (u := [.scalar '{', .scalar '}']) (by decide)
  | object ((k, j) :: ms), h, _, hr => by
    have hmembers := tight_renderAt (level + 1) j h.2.1 (tight_renderMembers level ms h.2.2 hr)
    have hcolon := hmembers.cons (c := .scalar ':') (by decide) (by decide)
    rw [renderAt_object, List.cons_append, List.append_assoc, List.cons_append, List.append_assoc]
    exact (hcolon.quotedText k).cons (by decide) (by decide)

theorem tight_renderItems (level : Nat) : ∀ js : List Json, EveryItem Writable js →
    ∀ {rest : Text}, Tight rest → Tight (renderItems wire level js ++ rest)
  | [], _, _, hr => hr.append (u := [.scalar ']']) (by decide)
  | j :: js, h, _, hr => by
    have hitems := tight_renderAt (level + 1) j h.1 (tight_renderItems level js h.2 hr)
    rw [renderItems_cons, List.cons_append, List.append_assoc]
    exact hitems.cons (by decide) (by decide)

theorem tight_renderMembers (level : Nat) : ∀ ms : List (Text × Json), EveryMember Writable ms →
    ∀ {rest : Text}, Tight rest → Tight (renderMembers wire level ms ++ rest)
  | [], _, _, hr => hr.append (u := [.scalar '}']) (by decide)
  | (k, j) :: ms, h, _, hr => by
    have hmembers := tight_renderAt (level + 1) j h.2.1 (tight_renderMembers level ms h.2.2 hr)
    have hcolon := hmembers.cons (c := .scalar ':') (by decide) (by decide)
    rw [renderMembers_cons, List.cons_append, List.append_assoc, List.cons_append, List.append_assoc]
    exact (hcolon.quotedText k).cons (by decide) (by decide)

end

end RowQuery.Json
