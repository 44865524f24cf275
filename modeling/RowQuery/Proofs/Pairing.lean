import Mathlib.Data.List.Forall2
import RowQuery.Proofs.Action

/-!
# Two actions side by side

Two actions that succeed or fail together. They start from related states and leave related states, and
what they return is related too. The relation is kept by the ways in which actions are put together, so
that it is shown for the parts of an operation and holds of the whole.
-/

namespace RowQuery.Action

variable {σ α β : Type}

set_option autoImplicit false

/-- Two results are values that are related, or both are errors. -/
inductive PairedResult (ρ : α → β → Prop) : Except Failure α → Except Failure β → Prop
  | ok {a : α} {b : β} (h : ρ a b) : PairedResult ρ (.ok a) (.ok b)
  | error (e e' : Failure) : PairedResult ρ (.error e) (.error e')

theorem PairedResult.map {γ δ : Type} {ρ : α → β → Prop} {τ : γ → δ → Prop} {r : Except Failure α}
    {r' : Except Failure β} (h : PairedResult ρ r r') {f : α → γ} {g : β → δ}
    (hfg : ∀ a b, ρ a b → τ (f a) (g b)) : PairedResult τ (r.map f) (r'.map g) := by
  cases h with
  | ok h => exact .ok (hfg _ _ h)
  | error e e' => exact .error e e'

/-- From related states two actions succeed with related values or fail together, and they leave related
states in either case. -/
def Pairs (R : σ → σ → Prop) (ρ : α → β → Prop) (x : Action σ α) (y : Action σ β) : Prop :=
  ∀ s t, R s t → PairedResult ρ (effect x s).1 (effect y t).1 ∧ R (effect x s).2 (effect y t).2

namespace Pairs

variable {R : σ → σ → Prop} {ρ : α → α → Prop} {x y : Action σ α}

theorem of_constant (h : Constant x) : Pairs R Eq x x := by
  obtain ⟨r, hr⟩ := h
  intro s t hst
  rw [hr, hr]
  refine ⟨?_, hst⟩
  cases r with
  | ok a => exact .ok rfl
  | error e => exact .error e e

/-- Two actions that always fail are paired. -/
theorem of_fails (hx : ∀ s, Fails x s) (hy : ∀ s, Fails y s) : Pairs R ρ x y := by
  intro s t hst
  obtain ⟨e, he⟩ := hx s
  obtain ⟨e', he'⟩ := hy t
  rw [he, he']
  exact ⟨.error e e', hst⟩

theorem of_lift {r r' : Except Failure α} (h : PairedResult ρ r r') :
    Pairs R ρ (Action.lift r) (Action.lift r') := by
  intro s t hst
  rw [effect_lift, effect_lift]
  exact ⟨h, hst⟩

/-- Paired steps with paired continuations are paired. -/
theorem bind {ρ' : β → β → Prop} {f g : α → Action σ β} (h : Pairs R ρ x y)
    (hrest : ∀ a b, ρ a b → Pairs R ρ' (f a) (g b)) : Pairs R ρ' (x >>= f) (y >>= g) := by
  intro s t hst
  obtain ⟨hresult, hstate⟩ := h s t hst
  rw [effect_bind, effect_bind]
  rcases hx : effect x s with ⟨r, s'⟩
  rcases hy : effect y t with ⟨r', t'⟩
  rw [hx, hy] at hresult hstate
  cases hresult with
  | ok h => exact hrest _ _ h _ _ hstate
  | error e e' => exact ⟨.error e e', hstate⟩

theorem forEach {γ : Type} {ρ : γ → γ → Prop} {f g : γ → Action σ Unit}
    (h : ∀ a b, ρ a b → Pairs R Eq (f a) (g b)) {as bs : List γ} (hs : List.Forall₂ ρ as bs) :
    Pairs R Eq (Action.forEach f as) (Action.forEach g bs) := by
  induction hs with
  | nil => exact of_constant (constant_pure ())
  | cons hab _ ih => exact (h _ _ hab).bind fun _ _ _ => ih

end Pairs

end RowQuery.Action
