import RowQuery.Proofs.Json.Numbers
import RowQuery.Proofs.Json.Settling

/-!
# Atoms of data that was read

What holds of every text and of every scalar that the reader can meet holds of all atoms of the data
that it returns. Main statement: the integers in data that was read have a text, since the reader refuses
longer ones.
-/

namespace RowQuery.Json

set_option autoImplicit false

/-- Whatever text the reader meets, and whatever scalar, has the property. -/
structure HoldsOfScalars (atom : Json → Prop) : Prop where
  text : ∀ t, atom (text t)
  scalar : ∀ {t rest : Text} {j : Json}, readScalar t = .ok (j, rest) → j.Every atom

theorem everyMember_insertMember {atom : Json → Prop} {ms : List (Text × Json)} {k : Text} {j : Json}
    (hk : atom (text k)) (hj : j.Every atom) (hms : EveryMember atom ms) :
    EveryMember atom (insertMember ms k j) := by
  induction ms with
  | nil => exact ⟨hk, hj, trivial⟩
  | cons m ms ih =>
    obtain ⟨l, i⟩ := m
    obtain ⟨hl, hi, hms⟩ := hms
    rw [insertMember]
    split
    · exact ⟨hl, hj, hms⟩
    · exact ⟨hl, hi, ih hms⟩

theorem everyMember_settle {atom : Json → Prop} {ms : List (Text × Json)}
    (hms : EveryMember atom ms) : EveryMember atom (settle ms) := by
  have hfold : ∀ kept : List (Text × Json), EveryMember atom kept →
      EveryMember atom (ms.foldl (fun settled m => insertMember settled m.1 m.2) kept) := by
    induction ms with
    | nil => exact fun _ hkept => hkept
    | cons m ms ih =>
      intro kept hkept
      exact ih hms.2.2 _ (everyMember_insertMember hms.1 hms.2.1 hkept)
  exact hfold [] trivial

mutual

/-- Data that is read has a property of atoms that all texts and scalars have. -/
theorem every_readValue {atom : Json → Prop} (ha : HoldsOfScalars atom) : ∀ (fuel : Nat) (t rest : Text) (j : Json),
    readValue fuel t = .ok (j, rest) → j.Every atom
  | 0, _, _, _, h => nomatch h
  | fuel + 1, t, rest, j, h => by
    rw [readValue.eq_def] at h
    simp only at h
    split at h
    · obtain ⟨p, -, he⟩ := map_eq_ok h
      cases he
      exact ha.text _
    · split at h
      · cases h
        trivial
      · obtain ⟨p, hp, he⟩ := map_eq_ok h
        cases he
        exact every_readItems ha fuel _ _ _ hp
    · split at h
      · cases h
        trivial
      · obtain ⟨p, hp, he⟩ := map_eq_ok h
        cases he
        exact everyMember_settle (every_readMembers ha fuel _ _ _ hp)
    · exact ha.scalar h

theorem every_readItems {atom : Json → Prop} (ha : HoldsOfScalars atom) : ∀ (fuel : Nat) (t rest : Text) (js : List Json),
    readItems fuel t = .ok (js, rest) → EveryItem atom js
  | 0, _, _, _, h => nomatch h
  | fuel + 1, t, rest, js, h => by
    rw [readItems.eq_def] at h
    simp only at h
    split at h
    · cases h
    · next j after hj =>
      have hfirst := every_readValue ha fuel _ _ _ hj
      split at h
      · cases h
        exact ⟨hfirst, trivial⟩
      · obtain ⟨p, hp, he⟩ := map_eq_ok h
        cases he
        exact ⟨hfirst, every_readItems ha fuel _ _ _ hp⟩
      · cases h

theorem every_readMembers {atom : Json → Prop} (ha : HoldsOfScalars atom) : ∀ (fuel : Nat) (t rest : Text) (ms : List (Text × Json)),
    readMembers fuel t = .ok (ms, rest) → EveryMember atom ms
  | 0, _, _, _, h => nomatch h
  | fuel + 1, t, rest, ms, h => by
    rw [readMembers.eq_def] at h
    simp only at h
    split at h
    · split at h
      · cases h
      · split at h
        · split at h
          · cases h
          · next j after hj =>
            have hfirst := every_readValue ha fuel _ _ _ hj
            split at h
            · cases h
              exact ⟨ha.text _, hfirst, trivial⟩
            · obtain ⟨p, hp, he⟩ := map_eq_ok h
              cases he
              exact ⟨ha.text _, hfirst, every_readMembers ha fuel _ _ _ hp⟩
            · cases h
        · cases h
    · cases h

end

/-- What holds of all texts and of all scalars that can be read holds of all atoms of the data. -/
theorem every_read {atom : Json → Prop} (ha : HoldsOfScalars atom) {t : Text} {j : Json}
    (h : read t = .ok j) : j.Every atom := by
  unfold read at h
  split at h
  · next i hi =>
    cases h
    unfold readAll at hi
    split at hi
    · cases hi
    · split at hi
      · cases hi
      · next hv =>
        split at hi
        · cases hi
          exact every_readValue ha _ _ _ _ hv
        · cases hi
  · cases h
  · cases h

/-! ## Integers -/

theorem allDigits_spanDigits (t : Text) : AllDigits (spanDigits t).1 := by
  intro c hc
  obtain ⟨d, hd, rfl⟩ := List.mem_map.1 hc
  have hdigit := List.all_eq_true.1 List.all_takeWhile d hd
  cases d with
  | scalar d =>
    change (Char.ofNat d.toNat).isDigit = true
    rw [Char.ofNat_toNat]
    exact hdigit
  | lone => cases hdigit

theorem allDigits_of_readWhole {t rest : Text} {ds : List Char} (h : readWhole t = some (ds, rest)) :
    AllDigits ds := by
  unfold readWhole at h
  split at h
  · cases h
    exact allDigits_zero
  · have hspan := allDigits_spanDigits t
    generalize spanDigits t = span at h hspan
    dsimp only at h
    split at h
    · cases h
    · cases h
      exact hspan

theorem ofDigitChars_lt {ds : List Char} (hd : AllDigits ds) (n : Nat) :
    Nat.ofDigitChars 10 ds n < (n + 1) * 10 ^ ds.length := by
  induction ds generalizing n with
  | nil => simp [Nat.ofDigitChars]
  | cons c ds ih =>
    have hc : c.toNat - '0'.toNat ≤ 9 := by
      have hdigit := hd c List.mem_cons_self
      simp only [Char.isDigit, ge_iff_le, Bool.and_eq_true, decide_eq_true_eq] at hdigit
      have hle : c.toNat ≤ '9'.toNat := hdigit.2
      have hnine : '9'.toNat = '0'.toNat + 9 := rfl
      omega
    have hrest := ih (fun d hd' => hd d (List.mem_cons_of_mem _ hd')) (10 * n + (c.toNat - '0'.toNat))
    calc
      _ = Nat.ofDigitChars 10 ds (10 * n + (c.toNat - '0'.toNat)) := Nat.ofDigitChars_cons
      _ < (10 * n + (c.toNat - '0'.toNat) + 1) * 10 ^ ds.length := hrest
      _ ≤ ((n + 1) * 10) * 10 ^ ds.length := Nat.mul_le_mul_right _ (by omega)
      _ = (n + 1) * 10 ^ (ds.length + 1) := by rw [Nat.mul_assoc, Nat.pow_succ']

/-- An integer that is read has no more digits than the reader admits. -/
theorem short_readNumber {t rest : Text} {j : Json} (h : readNumber t = .ok (j, rest)) :
    j.Every Short := by
  unfold readNumber at h
  split at h
  split at h
  · cases h
  · next whole _ hwhole =>
    split at h
    split at h
    · split at h
      · cases h
      · next hlength =>
        cases h
        have hvalue := ofDigitChars_lt (allDigits_of_readWhole hwhole) 0
        have hpow := Nat.pow_le_pow_right (show 0 < 10 by decide) (Nat.not_lt.1 hlength)
        change Decimal.length _ ≤ _
        rw [Decimal.length_le_iff]
        split <;> omega
    · cases h
      trivial

theorem short_readScalar {t rest : Text} {j : Json} (h : readScalar t = .ok (j, rest)) :
    j.Every Short := by
  unfold readScalar at h
  split at h
  · next word i hw =>
    cases h
    have hall : ∀ w ∈ words, w.2.Every Short := by
      intro w hw
      simp only [words, List.mem_cons, List.not_mem_nil, or_false] at hw
      rcases hw with rfl | rfl | rfl | rfl | rfl | rfl <;> trivial
    exact hall _ (List.mem_of_find?_eq_some hw)
  · exact short_readNumber h

/-- The integers in data that was read have a text. -/
theorem short_read {t : Text} {j : Json} (h : read t = .ok j) : j.Every Short :=
  every_read ⟨fun _ => trivial, short_readScalar⟩ h

end RowQuery.Json
