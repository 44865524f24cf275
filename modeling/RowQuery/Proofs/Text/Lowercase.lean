import Mathlib.Data.List.Forall2
import RowQuery.Proofs.Json.Strings
import RowQuery.Text.Lowercase

/-!
# Words in any case

The lower case of a text is a word of ASCII letters just where each code point is the small or the capital letter,
unless an `i` or a `k` is in the word: two letters outside ASCII have those in their lower case.
-/

namespace RowQuery

set_option autoImplicit false

namespace CodePoint

/-- A small letter of ASCII that no letter outside ASCII has in its lower case. -/
def IsPlainSmall (d : Char) : Prop := 0x61 ≤ d.toNat ∧ d.toNat ≤ 0x7A ∧ d.toNat ≠ 0x69 ∧ d.toNat ≠ 0x6B

instance (d : Char) : Decidable (IsPlainSmall d) := inferInstanceAs (Decidable (_ ∧ _))

/-- The small letter, or the capital one. -/
def IsCaseOf (d : Char) (c : CodePoint) : Prop := c.toNat = d.toNat ∨ c.toNat + 0x20 = d.toNat

theorem toNat_of_ofNat_eq {n : Nat} {d : Char} (hd : d.toNat ≠ 0) (h : ofNat n = .scalar d) : n = d.toNat := by
  unfold ofNat at h
  split at h
  · cases h
  · cases h
    by_cases hvalid : n.isValidChar
    · rw [Char.ofNat, dif_pos hvalid]
      rfl
    · rw [Char.ofNat, dif_neg hvalid] at hd
      exact absurd rfl hd

/-- The lower case of every other letter lies outside ASCII, but for the sign of the kelvin. -/
theorem ascii_capitals : ∀ r ∈ capitals, 0x80 ≤ (r.1 : Int) + r.2.2.2 ∨ r = (0x212A, 0x212A, 1, -8383) := by
  decide +kernel

/-- Only the two cases of a letter have it as their lower case. -/
theorem isCaseOf_of_lower {c : CodePoint} {d : Char} {u : Text} (hd : IsPlainSmall d)
    (h : c.lower = .scalar d :: u) : IsCaseOf d c ∧ u = [] := by
  have hname : ∀ n, ofNat n = .scalar d → n = d.toNat :=
    fun n => toNat_of_ofNat_eq (Nat.ne_of_gt (Nat.lt_of_lt_of_le (by decide) hd.1))
  obtain ⟨hlow, hhigh, hi, hk⟩ := hd
  unfold lower at h
  dsimp only at h
  split at h
  · split at h
    · obtain ⟨hc, rfl⟩ := List.cons.inj h
      exact ⟨.inr (hname _ hc), rfl⟩
    · cases h
      exact ⟨.inl rfl, rfl⟩
  · next hascii =>
    split at h
    · obtain ⟨hc, -⟩ := List.cons.inj h
      exact absurd (hname _ hc).symm hi
    · split at h
      · next first last step distance hrow =>
        obtain ⟨hc, -⟩ := List.cons.inj h
        have hnumber := hname _ hc
        have hbounds := List.find?_some hrow
        simp only [Bool.and_eq_true, decide_eq_true_eq] at hbounds
        rcases ascii_capitals _ (List.mem_of_find?_eq_some hrow) with hfar | hkelvin
        · dsimp only at hfar
          omega
        · cases hkelvin
          omega
      · cases h
        exact absurd (Nat.lt_of_le_of_lt hhigh (by decide)) hascii

theorem lower_of_isCaseOf {c : CodePoint} {d : Char} (hd : IsPlainSmall d) (h : IsCaseOf d c) :
    c.lower = [.scalar d] := by
  have hletter : ofNat d.toNat = .scalar d := ofNat_toNat (.scalar d)
  obtain ⟨hlow, hhigh, -, -⟩ := hd
  unfold lower
  dsimp only
  rcases h with hc | hc
  · rw [if_pos (by omega), if_neg (by omega), ← ofNat_toNat c, hc, hletter]
  · rw [if_pos (by omega), if_pos (by omega), hc, hletter]

theorem lower_ne_nil (c : CodePoint) : c.lower ≠ [] := by
  unfold lower
  dsimp only
  split
  · simp
  · split
    · simp
    · split <;> simp

end CodePoint

namespace Text

open CodePoint (IsPlainSmall IsCaseOf)

/-- A lower case that starts with a letter is that of a text that starts with the letter in any case. -/
theorem lowerAfter_eq_cons {d : Char} (hd : IsPlainSmall d) {before t u : Text} :
    lowerAfter before t = .scalar d :: u ↔
      ∃ c rest, t = c :: rest ∧ IsCaseOf d c ∧ lowerAfter (c :: before) rest = u := by
  constructor
  · intro h
    cases t with
    | nil => cases h
    | cons c rest =>
      rw [lowerAfter] at h
      refine ⟨c, rest, rfl, ?_⟩
      split at h
      · obtain ⟨hsigma, -⟩ := List.cons.inj h
        have hnumber := CodePoint.toNat_of_ofNat_eq (Nat.ne_of_gt (Nat.lt_of_lt_of_le (by decide) hd.1)) hsigma
        have hhigh := hd.2.1
        split at hnumber <;> omega
      · cases hlower : c.lower with
        | nil => exact absurd hlower c.lower_ne_nil
        | cons e v =>
          rw [hlower] at h
          obtain ⟨rfl, hu⟩ := List.cons.inj h
          obtain ⟨hcase, rfl⟩ := CodePoint.isCaseOf_of_lower hd hlower
          exact ⟨hcase, hu⟩
  · rintro ⟨c, rest, rfl, hcase, rfl⟩
    have hsigma : c.toNat ≠ 0x3A3 := by
      have hhigh := hd.2.1
      rcases hcase with hc | hc <;> omega
    rw [lowerAfter, if_neg hsigma, CodePoint.lower_of_isCaseOf hd hcase]
    rfl

/-- A text is a word in lower case if it is the word in any case. -/
theorem lower_eq_iff (word : List Char) (hword : ∀ d ∈ word, IsPlainSmall d) (t : Text) :
    t.lower = ofChars word ↔ List.Forall₂ IsCaseOf word t := by
  suffices ∀ before, lowerAfter before t = ofChars word ↔ List.Forall₂ IsCaseOf word t from this []
  induction word generalizing t with
  | nil =>
    intro before
    rw [List.forall₂_nil_left_iff]
    refine ⟨fun h => ?_, fun h => h ▸ rfl⟩
    cases t with
    | nil => rfl
    | cons c rest =>
      rw [lowerAfter] at h
      obtain ⟨h, -⟩ := List.append_eq_nil_iff.1 h
      split at h
      · cases h
      · exact absurd h c.lower_ne_nil
  | cons d word ih =>
    intro before
    obtain ⟨hd, hword⟩ := List.forall_mem_cons.1 hword
    rw [List.forall₂_cons_left_iff]
    refine (lowerAfter_eq_cons hd).trans ⟨?_, ?_⟩
    · rintro ⟨c, rest, rfl, hcase, hrest⟩
      exact ⟨c, rest, hcase, (ih hword rest (c :: before)).1 hrest, rfl⟩
    · rintro ⟨c, rest, hcase, hrest, rfl⟩
      exact ⟨c, rest, rfl, hcase, (ih hword rest (c :: before)).2 hrest⟩

end Text

end RowQuery
