import RowQuery.Failure

/-!
# Failures of computations

A computation that succeeds went through all of its steps. A property that every failure of a computation has
is carried through the steps and through lists of them.
-/

namespace RowQuery

set_option autoImplicit false

/-- A sequence succeeds only through both of its steps. -/
theorem bind_eq_ok {ε α β : Type} {x : Except ε α} {f : α → Except ε β} {b : β}
    (h : x >>= f = .ok b) : ∃ a, x = .ok a ∧ f a = .ok b := by
  cases x with
  | error e => cases h
  | ok a => exact ⟨a, rfl, h⟩

theorem map_eq_ok {ε α β : Type} {f : α → β} {x : Except ε α} {b : β} (h : x.map f = .ok b) :
    ∃ a, x = .ok a ∧ f a = b := by
  cases x with
  | error e => cases h
  | ok a => exact ⟨a, rfl, Except.ok.inj h⟩

theorem eq_ok_of_toOption {ε α : Type} {x : Except ε α} {a : α} (h : x.toOption = some a) : x = .ok a := by
  cases x with
  | error e => cases h
  | ok b => exact congrArg Except.ok (Option.some.inj h)

/-- Every failure of a call satisfies `p`. -/
def FailsOnly {ε α : Type} (p : ε → Prop) (x : Except ε α) : Prop := ∀ e, x = .error e → p e

namespace FailsOnly

variable {ε α β : Type} {p : ε → Prop} {x : Except ε α}

theorem of_ok (a : α) : FailsOnly p (.ok a) := nofun

theorem of_error {e : ε} (h : p e) : FailsOnly (α := α) p (.error e) := by
  rintro e' ⟨⟩
  exact h

theorem imp (hx : FailsOnly p x) {q : ε → Prop} (h : ∀ e, p e → q e) : FailsOnly q x :=
  fun e he => h e (hx e he)

theorem bind (hx : FailsOnly p x) {f : α → Except ε β} (hf : ∀ a, x = .ok a → FailsOnly p (f a)) :
    FailsOnly p (x >>= f) := by
  cases x with
  | error e => exact of_error (hx e rfl)
  | ok a => exact hf a rfl

theorem map (hx : FailsOnly p x) (f : α → β) : FailsOnly p (x.map f) := by
  cases x with
  | error e => exact of_error (hx e rfl)
  | ok a => exact of_ok (f a)

/-- A failure of a loop is the failure of one of its elements. -/
theorem mapM {f : α → Except ε β} {as : List α} (h : ∀ a ∈ as, FailsOnly p (f a)) :
    FailsOnly p (as.mapM f) := by
  induction as with
  | nil => exact of_ok []
  | cons a as ih =>
    obtain ⟨ha, has⟩ := List.forall_mem_cons.1 h
    rw [List.mapM_cons]
    apply ha.bind
    intro b _
    apply (ih has).bind
    intro bs _
    exact of_ok (b :: bs)

end FailsOnly

end RowQuery
