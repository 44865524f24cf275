import RowQuery.Proofs.Text.WellFormed
import RowQuery.Text.Blank

/-!
# Pieces of texts

What stands in the pieces that a text is cut into: nothing that the text does not hold, no separator, and
no blank at the ends of a trimmed piece.
-/

namespace RowQuery.Text

set_option autoImplicit false

/-! ## Separators -/

theorem notMem_of_splitFirst {separator : CodePoint} {t : Text} :
    separator ∉ ((t.splitFirst? separator).getD (t, [])).1 := by
  induction t with
  | nil => exact nofun
  | cons c t ih =>
    rw [splitFirst?]
    split
    · exact nofun
    · next hc =>
      cases hsplit : splitFirst? separator t with
      | none =>
        rw [hsplit] at ih
        simpa using ⟨Ne.symm hc, ih⟩
      | some p =>
        rw [hsplit] at ih
        simpa using ⟨Ne.symm hc, ih⟩

/-- The text before the first occurrence of a separator; without one it is the whole text. -/
def before (separator : CodePoint) (t : Text) : Text := t.takeWhile (· ≠ separator)

/-- The text after the first occurrence of a separator; without one it is empty. -/
def after (separator : CodePoint) (t : Text) : Text := (t.dropWhile (· ≠ separator)).tail

theorem splitFirst_getD (separator : CodePoint) (t : Text) :
    (t.splitFirst? separator).getD (t, []) = (t.before separator, t.after separator) := by
  induction t with
  | nil => rfl
  | cons c t ih =>
    by_cases hc : c = separator
    · simp [splitFirst?, before, after, hc]
    · have htake : before separator (c :: t) = c :: before separator t :=
        List.takeWhile_cons_of_pos (by simpa using hc)
      have hdrop : after separator (c :: t) = after separator t :=
        congrArg List.tail (List.dropWhile_cons_of_pos (by simpa using hc))
      rw [splitFirst?, if_neg hc, htake, hdrop]
      cases hsplit : splitFirst? separator t with
      | none =>
        rw [hsplit] at ih
        obtain ⟨hbefore, hafter⟩ := Prod.mk.inj ih
        rw [← hbefore, ← hafter]
        rfl
      | some parts =>
        rw [hsplit] at ih
        obtain rfl : parts = _ := ih
        rfl

theorem notMem_before (separator : CodePoint) (t : Text) : separator ∉ t.before separator := by
  have h : separator ∉ ((t.splitFirst? separator).getD (t, [])).1 := notMem_of_splitFirst
  rwa [splitFirst_getD] at h

/-- No piece holds the separator. -/
theorem notMem_of_mem_split {separator : CodePoint} {t : Text} :
    ∀ piece ∈ t.split separator, separator ∉ piece := by
  induction t with
  | nil => simp [split]
  | cons c t ih =>
    rw [split]
    split
    · exact List.forall_mem_cons.2 ⟨nofun, ih⟩
    · next hc =>
      split
      · simpa using Ne.symm hc
      · next piece pieces hsplit =>
        rw [hsplit, List.forall_mem_cons] at ih
        refine List.forall_mem_cons.2 ⟨?_, ih.2⟩
        simpa using ⟨Ne.symm hc, ih.1⟩

theorem isWellFormed_of_mem_split {separator : CodePoint} {t : Text} (h : t.isWellFormed = true) :
    ∀ piece ∈ t.split separator, piece.isWellFormed = true := by
  induction t with
  | nil => simp [split]
  | cons c t ih =>
    obtain ⟨hc, ht⟩ := Bool.and_eq_true_iff.1 h
    have hpieces := ih ht
    rw [split]
    split
    · exact List.forall_mem_cons.2 ⟨rfl, hpieces⟩
    · split
      · simp [hc]
      · next piece pieces hsplit =>
        rw [hsplit, List.forall_mem_cons] at hpieces
        exact List.forall_mem_cons.2 ⟨Bool.and_eq_true_iff.2 ⟨hc, hpieces.1⟩, hpieces.2⟩

theorem isWellFormed_of_splitFirst {separator : CodePoint} {t : Text} (h : t.isWellFormed = true)
    {p : Text × Text} (hp : t.splitFirst? separator = some p) :
    p.1.isWellFormed = true ∧ p.2.isWellFormed = true := by
  induction t generalizing p with
  | nil => cases hp
  | cons c t ih =>
    obtain ⟨hc, ht⟩ := Bool.and_eq_true_iff.1 h
    rw [splitFirst?] at hp
    split at hp
    · cases hp
      exact ⟨rfl, ht⟩
    · obtain ⟨q, hq, rfl⟩ := Option.map_eq_some_iff.1 hp
      obtain ⟨hname, hvalue⟩ := ih ht hq
      exact ⟨Bool.and_eq_true_iff.2 ⟨hc, hname⟩, hvalue⟩

theorem join_append {separator : Text} {ps qs : List Text} (hp : ps ≠ []) (hq : qs ≠ []) :
    join separator (ps ++ qs) = join separator ps ++ separator ++ join separator qs := by
  unfold join
  induction ps with
  | nil => exact absurd rfl hp
  | cons p ps ih =>
    by_cases hps : ps = []
    · rw [hps, List.singleton_append, List.intercalate_singleton,
        List.intercalate_cons_of_ne_nil hq]
    · have happend : ps ++ qs ≠ [] := fun h => hps (List.append_eq_nil_iff.1 h).1
      rw [List.cons_append, List.intercalate_cons_of_ne_nil happend, ih hps,
        List.intercalate_cons_of_ne_nil hps]
      simp only [List.append_assoc]

/-! ## Ends -/

section Ends

variable (p : CodePoint → Bool)

theorem dropEndWhile_cons (c : CodePoint) (t : Text) :
    dropEndWhile p (c :: t) =
      if (dropEndWhile p t).isEmpty && p c then [] else c :: dropEndWhile p t := rfl

theorem mem_of_mem_dropEndWhile {t : Text} : ∀ c ∈ dropEndWhile p t, c ∈ t := by
  induction t with
  | nil => exact nofun
  | cons d t ih =>
    rw [dropEndWhile_cons]
    split
    · exact nofun
    · exact List.forall_mem_cons.2
        ⟨List.mem_cons_self, fun c hc => List.mem_cons_of_mem _ (ih c hc)⟩

theorem dropEndWhile_dropEndWhile (t : Text) :
    dropEndWhile p (dropEndWhile p t) = dropEndWhile p t := by
  induction t with
  | nil => rfl
  | cons c t ih =>
    rw [dropEndWhile_cons]
    split
    · rfl
    · next hc => rw [dropEndWhile_cons, ih, if_neg hc]

/-- What is dropped at the end leaves the start as it is. -/
theorem dropWhile_trimWhile (t : Text) :
    (trimWhile p t).dropWhile p = trimWhile p t := by
  unfold trimWhile
  induction t with
  | nil => rfl
  | cons c t ih =>
    cases hc : p c with
    | true =>
      rw [List.dropWhile_cons_of_pos hc]
      exact ih
    | false =>
      have hkeep : ¬ ((dropEndWhile p t).isEmpty && p c) = true := by simp [hc]
      rw [List.dropWhile_cons_of_neg (by simp [hc]), dropEndWhile_cons, if_neg hkeep,
        List.dropWhile_cons_of_neg (by simp [hc])]

/-- What is trimmed has nothing more to trim. -/
theorem trimWhile_trimWhile (t : Text) : trimWhile p (trimWhile p t) = trimWhile p t := by
  change dropEndWhile p ((trimWhile p t).dropWhile p) = _
  rw [dropWhile_trimWhile]
  exact dropEndWhile_dropEndWhile p _

/-- Nothing is left of a text where everything in it is dropped, and only there. -/
theorem isEmpty_trimWhile (t : Text) : (trimWhile p t).isEmpty = t.all p := by
  induction t with
  | nil => rfl
  | cons c t ih =>
    cases hc : p c with
    | true =>
      rw [List.all_cons, hc, Bool.true_and, ← ih, trimWhile, List.dropWhile_cons_of_pos hc]
      rfl
    | false =>
      have hkeep : ¬ ((dropEndWhile p t).isEmpty && p c) = true := by simp [hc]
      rw [List.all_cons, hc, trimWhile, List.dropWhile_cons_of_neg (by simp [hc]),
        dropEndWhile_cons, if_neg hkeep]
      rfl

theorem mem_of_mem_trim {t : Text} : ∀ c ∈ t.trim, c ∈ t := fun c hc =>
  (List.dropWhile_sublist _).subset (mem_of_mem_dropEndWhile _ c hc)

variable {t : Text} (h : t.isWellFormed = true)
include h

theorem isWellFormed_dropWhile : isWellFormed (t.dropWhile p) = true := by
  rw [isWellFormed_iff] at h ⊢
  exact fun c hc => h c ((List.dropWhile_sublist p).subset hc)

theorem isWellFormed_dropEndWhile : isWellFormed (t.dropEndWhile p) = true := by
  rw [isWellFormed_iff] at h ⊢
  exact fun c hc => h c (mem_of_mem_dropEndWhile p c hc)

theorem isWellFormed_trim : t.trim.isWellFormed = true := by
  rw [isWellFormed_iff] at h ⊢
  exact fun c hc => h c (mem_of_mem_trim c hc)

end Ends

end RowQuery.Text
