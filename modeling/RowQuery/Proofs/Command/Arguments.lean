import RowQuery.Command.Arguments
import RowQuery.Proofs.Text.Pieces

/-!
# Values of command line options

The value of an option is an argument or the end of one. So where no argument holds a lone surrogate
half, neither does the value of an option nor an operand.
-/

namespace RowQuery.Arguments

set_option autoImplicit false

variable {κ : Type} {specs : List (Spec κ)}

/-- No value of an option holds a lone surrogate half. -/
def AreWellFormed (options : List (κ × Text)) : Prop := ∀ o ∈ options, o.2.isWellFormed = true

theorem areWellFormed_readLetters {t : Text} {step : Step κ} (ht : t.isWellFormed = true)
    (h : readLetters specs t = some step) : AreWellFormed step.1 := by
  induction t generalizing step with
  | nil =>
    cases h
    exact nofun
  | cons c t ih =>
    obtain ⟨-, ht⟩ := Bool.and_eq_true_iff.1 ht
    rw [readLetters] at h
    split at h
    · cases h
    · split at h
      · split at h
        · cases h
          exact nofun
        · cases h
          exact List.forall_mem_singleton.2 ht
      · obtain ⟨rest, hrest, rfl⟩ := Option.map_eq_some_iff.1 h
        exact List.forall_mem_cons.2 ⟨rfl, ih ht hrest⟩

theorem areWellFormed_readLong {arg : Text} {step : Step κ} (harg : arg.isWellFormed = true)
    (h : readLong specs arg = some step) : AreWellFormed step.1 := by
  unfold readLong at h
  cases hsplit : arg.splitFirst? (.scalar '=') with
  | none =>
    rw [hsplit] at h
    dsimp only at h
    split at h
    · cases h
    · next s _ =>
      cases hkind : s.takesValue <;> rw [hkind] at h <;> cases h
      · exact List.forall_mem_singleton.2 rfl
      · exact nofun
  | some parts =>
    have hvalue := (Text.isWellFormed_of_splitFirst harg hsplit).2
    rw [hsplit] at h
    dsimp only at h
    split at h
    · cases h
    · next s _ =>
      cases hkind : s.takesValue <;> rw [hkind] at h <;> cases h
      exact List.forall_mem_singleton.2 hvalue

/-- Every value that is read from an argument is a part of it. -/
theorem areWellFormed_readOption {arg : Text} {step : Step κ} (harg : arg.isWellFormed = true)
    (h : readOption specs arg = some step) : AreWellFormed step.1 := by
  unfold readOption at h
  split at h
  · exact areWellFormed_readLong harg h
  · exact areWellFormed_readLetters (Text.isWellFormed_drop harg 1) h

/-- Arguments without lone surrogate halves give values and operands without them. -/
theorem areWellFormed_read {mixed : Bool} {args : List Text} {p : Parsed κ}
    (hargs : ∀ arg ∈ args, arg.isWellFormed = true) (h : read specs mixed args = some p) :
    AreWellFormed p.options ∧ ∀ t ∈ p.operands, t.isWellFormed = true := by
  fun_induction read specs mixed args generalizing p with
  | case1 =>
    cases h
    exact ⟨nofun, nofun⟩
  | case2 args =>
    cases h
    exact ⟨nofun, (List.forall_mem_cons.1 hargs).2⟩
  | case3 => cases h
  | case4 arg _ _ settled args hoption ih =>
    obtain ⟨harg, hrest⟩ := List.forall_mem_cons.1 hargs
    obtain ⟨p, hp, rfl⟩ := Option.map_eq_some_iff.1 h
    obtain ⟨hoptions, hoperands⟩ := ih hrest hp
    have hsettled := areWellFormed_readOption harg hoption
    exact ⟨List.forall_mem_append.2 ⟨hsettled, hoptions⟩, hoperands⟩
  | case5 => cases h
  | case6 arg _ _ settled key value args hoption ih =>
    obtain ⟨harg, hrest⟩ := List.forall_mem_cons.1 hargs
    obtain ⟨hvalue, hrest⟩ := List.forall_mem_cons.1 hrest
    obtain ⟨p, hp, rfl⟩ := Option.map_eq_some_iff.1 h
    obtain ⟨hoptions, hoperands⟩ := ih hrest hp
    have hsettled := areWellFormed_readOption harg hoption
    exact ⟨List.forall_mem_append.2 ⟨hsettled, List.forall_mem_cons.2 ⟨hvalue, hoptions⟩⟩, hoperands⟩
  | case7 arg args _ _ _ ih =>
    obtain ⟨harg, hrest⟩ := List.forall_mem_cons.1 hargs
    obtain ⟨p, hp, rfl⟩ := Option.map_eq_some_iff.1 h
    obtain ⟨hoptions, hoperands⟩ := ih hrest hp
    exact ⟨hoptions, List.forall_mem_cons.2 ⟨harg, hoperands⟩⟩
  | case8 =>
    cases h
    exact ⟨nofun, hargs⟩

theorem isWellFormed_last [DecidableEq κ] {p : Parsed κ} (h : AreWellFormed p.options) {key : κ}
    {t : Text} (ht : p.last? key = some t) : t.isWellFormed = true := by
  obtain ⟨o, ho, rfl⟩ := List.mem_map.1 (List.mem_of_getLast? ht)
  exact h o (List.mem_filter.1 ho).1

end RowQuery.Arguments
