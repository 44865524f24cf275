import RowQuery.Number.Notation
import RowQuery.Text.Quoted

/-!
# Well-formed texts

Numbers, literals and quoted texts hold no lone surrogate half, and neither does what is put together
from texts that hold none.
-/

namespace RowQuery

set_option autoImplicit false

@[simp] theorem CodePoint.isScalar_scalar (c : Char) : (scalar c).isScalar = true := rfl

namespace Text

theorem isWellFormed_iff {t : Text} : t.isWellFormed = true ↔ ∀ c ∈ t, c.isScalar = true :=
  List.all_eq_true

@[simp] theorem isWellFormed_nil : isWellFormed [] = true := rfl

@[simp] theorem isWellFormed_cons (c : CodePoint) (t : Text) :
    isWellFormed (c :: t) = (c.isScalar && t.isWellFormed) := rfl

@[simp] theorem isWellFormed_append (s t : Text) :
    isWellFormed (s ++ t) = (s.isWellFormed && t.isWellFormed) := List.all_append

@[simp] theorem isWellFormed_ofChars (cs : List Char) : (ofChars cs).isWellFormed = true := by
  induction cs with
  | nil => rfl
  | cons c cs ih => exact ih

@[simp] theorem isWellFormed_ofString (s : String) : (ofString s).isWellFormed = true :=
  isWellFormed_ofChars _

@[simp] theorem isWellFormed_ofNat (n : Nat) : (ofNat n).isWellFormed = true :=
  isWellFormed_ofChars _

@[simp] theorem isWellFormed_ofInt (n : Int) : (ofInt n).isWellFormed = true := by
  cases n with
  | ofNat n => exact isWellFormed_ofNat n
  | negSucc n => exact isWellFormed_ofNat (n + 1)

@[simp] theorem isWellFormed_replicate (n : Nat) (c : Char) :
    isWellFormed (List.replicate n (.scalar c)) = true := by
  rw [isWellFormed_iff]
  intro d hd
  rw [(List.mem_replicate.1 hd).2]
  rfl

@[simp] theorem isWellFormed_padStart (width : Nat) (c : Char) (t : Text) :
    (padStart width (.scalar c) t).isWellFormed = t.isWellFormed := by
  simp [padStart]

@[simp] theorem isWellFormed_ofHex (width n : Nat) : (ofHex width n).isWellFormed = true := by
  simp [ofHex]

theorem isWellFormed_take {t : Text} (h : t.isWellFormed = true) (n : Nat) :
    isWellFormed (t.take n) = true := by
  rw [isWellFormed_iff] at h ⊢
  exact fun c hc => h c (List.mem_of_mem_take hc)

theorem isWellFormed_drop {t : Text} (h : t.isWellFormed = true) (n : Nat) :
    isWellFormed (t.drop n) = true := by
  rw [isWellFormed_iff] at h ⊢
  exact fun c hc => h c (List.mem_of_mem_drop hc)

theorem isWellFormed_flatMap {t : Text} (h : t.isWellFormed = true) {f : CodePoint → Text}
    (hf : ∀ c, c.isScalar = true → (f c).isWellFormed = true) :
    isWellFormed (t.flatMap f) = true := by
  induction t with
  | nil => rfl
  | cons c t ih =>
    obtain ⟨hc, ht⟩ := Bool.and_eq_true_iff.1 h
    rw [List.flatMap_cons, isWellFormed_append, hf c hc, ih ht, Bool.and_self]

/-- Pieces without lone halves are joined to a text without them. -/
theorem isWellFormed_join {separator : Text} (hs : separator.isWellFormed = true)
    {pieces : List Text} (h : ∀ t ∈ pieces, t.isWellFormed = true) :
    (join separator pieces).isWellFormed = true := by
  unfold join
  induction pieces with
  | nil => rfl
  | cons t pieces ih =>
    have ht := h t List.mem_cons_self
    cases pieces with
    | nil =>
      rw [List.intercalate_singleton]
      exact ht
    | cons u pieces =>
      have hrest := ih fun v hv => h v (List.mem_cons_of_mem _ hv)
      rw [List.intercalate_cons_cons, isWellFormed_append, isWellFormed_append, ht, hs, hrest]
      rfl

end Text

namespace CodePoint

theorem isWellFormed_escapeByNumber (n : Nat) : (escapeByNumber n).isWellFormed = true := by
  unfold escapeByNumber
  split
  · simp
  · split <;> simp

theorem isWellFormed_quoted (quote : Char) {c : CodePoint} (hc : c.isScalar = true) :
    (c.quoted quote).isWellFormed = true := by
  unfold quoted
  split
  · simp [hc]
  · repeat' split
    · exact Text.isWellFormed_ofString _
    · exact Text.isWellFormed_ofString _
    · exact Text.isWellFormed_ofString _
    · simp [hc]
    · exact isWellFormed_escapeByNumber _

end CodePoint

theorem Text.isWellFormed_quoted {t : Text} (h : t.isWellFormed = true) :
    t.quoted.isWellFormed = true := by
  have hbody := fun quote : Char => isWellFormed_flatMap h fun c hc =>
    CodePoint.isWellFormed_quoted quote hc
  unfold quoted
  simp [hbody]

namespace Binary64

@[simp] theorem isWellFormed_minus (negative : Bool) : (minus negative).isWellFormed = true := by
  cases negative <;> rfl

theorem isWellFormed_exponentText (e : Int) : (exponentText e).isWellFormed = true := by
  simp [exponentText]

theorem isWellFormed_decimalText (d : Decimal) : (decimalText d).isWellFormed = true := by
  have hdigits : (Text.ofNat d.digits).isWellFormed = true := Text.isWellFormed_ofNat _
  unfold decimalText pointed
  dsimp only
  split
  · have hexponent := isWellFormed_exponentText
    split
    · next hd =>
      rw [hd] at hdigits
      simp_all
    · next hd =>
      rw [hd] at hdigits
      simp_all
    · simp [hexponent]
  · split
    · simp
    · split
      · simp
      · simp [Text.isWellFormed_take hdigits, Text.isWellFormed_drop hdigits]

theorem isWellFormed_toText (x : Binary64) : x.toText.isWellFormed = true := by
  cases x with
  | undefined => exact Text.isWellFormed_ofString _
  | infinite => simp [toText]
  | finite negative rank =>
    rw [toText, Text.isWellFormed_append, isWellFormed_minus, Bool.true_and]
    split
    · exact Text.isWellFormed_ofString _
    · exact isWellFormed_decimalText _

theorem isWellFormed_toFixed (x : Binary64) : x.toFixed.isWellFormed = true := by
  cases x with
  | undefined => exact Text.isWellFormed_ofString _
  | infinite => simp [toFixed]
  | finite => simp [toFixed, hundredths]

end Binary64

end RowQuery
