import RowQuery.Proofs.Text.Pieces
import RowQuery.Url.Form

/-!
# Decoded texts are well-formed

Reading a query string never makes a lone surrogate half: escapes give octets, and octets that are no
character are replaced. So a query string without such halves has fields without them.
-/

namespace RowQuery

set_option autoImplicit false

namespace Percent

/-- Escapes give characters, whatever octets they stand for. -/
theorem isWellFormed_decodeFrom (pending : Option Utf8.Pending) {t : Text}
    (h : t.isWellFormed = true) : (decodeFrom pending t).isWellFormed = true := by
  fun_induction decodeFrom pending t with
  | case1 => exact Text.isWellFormed_ofChars _
  | case2 pending a b t n _ ih => simp_all
  | case3 pending a b t _ ih => simp_all
  | case4 pending c t _ _ ih => simp_all
  | case5 pending c t _ _ ih => simp_all

end Percent

namespace Form

theorem isWellFormed_plusToSpace {t : Text} (h : t.isWellFormed = true) :
    (plusToSpace t).isWellFormed = true := by
  rw [Text.isWellFormed_iff] at h ⊢
  intro c hc
  obtain ⟨d, hd, rfl⟩ := List.mem_map.1 hc
  split
  · rfl
  · exact h d hd

theorem isWellFormed_decodeText {t : Text} (h : t.isWellFormed = true) :
    (decodeText t).isWellFormed = true :=
  Percent.isWellFormed_decodeFrom none (isWellFormed_plusToSpace h)

theorem isWellFormed_decodeField {t : Text} (h : t.isWellFormed = true) :
    (decodeField t).1.isWellFormed = true ∧ (decodeField t).2.isWellFormed = true := by
  unfold decodeField
  split
  · next name value hsplit =>
    obtain ⟨hname, hvalue⟩ := Text.isWellFormed_of_splitFirst h hsplit
    exact ⟨isWellFormed_decodeText hname, isWellFormed_decodeText hvalue⟩
  · exact ⟨isWellFormed_decodeText h, rfl⟩

/-- The fields of a query string without lone surrogate halves have none either. -/
theorem isWellFormed_of_mem_decode {t : Text} (h : t.isWellFormed = true) :
    ∀ f ∈ decode t, f.1.isWellFormed = true ∧ f.2.isWellFormed = true := by
  intro f hf
  obtain ⟨piece, hpiece, rfl⟩ := List.mem_map.1 hf
  have hbody := Text.isWellFormed_dropWhile (· = CodePoint.scalar '?') h
  exact isWellFormed_decodeField
    (Text.isWellFormed_of_mem_split hbody piece (List.mem_filter.1 hpiece).1)

end Form

end RowQuery
