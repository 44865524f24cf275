import RowQuery.Journal

/-!
# Effects of actions

The effect of an action is its result together with the state that it leaves; the events that it
records are set aside. Effects compose, so that an operation is opened step by step. An action that
only reads keeps the state.
-/

namespace RowQuery.Action

variable {σ τ α β γ : Type}

set_option autoImplicit false

/-- The result of an action and the state that it leaves. -/
def effect (x : Action σ α) (s : σ) : Except Failure α × σ := ((x s).result, (x s).state)

/-- What follows a step: the rest, from the state that the step left, unless the step failed. -/
def andThen (f : α → Action σ β) : Except Failure α × σ → Except Failure β × σ
  | (.ok a, s) => effect (f a) s
  | (.error e, s) => (.error e, s)

@[simp] theorem andThen_ok (f : α → Action σ β) (a : α) (s : σ) :
    andThen f (.ok a, s) = effect (f a) s := rfl

@[simp] theorem andThen_error (f : α → Action σ β) (e : Failure) (s : σ) :
    andThen f (.error e, s) = (.error e, s) := rfl

theorem andThen_pure (f : α → β) (r : Except Failure α × σ) :
    andThen (fun a => pure (f a)) r = (r.1.map f, r.2) := by
  obtain ⟨result, s⟩ := r
  cases result <;> rfl

@[simp] theorem effect_pure (a : α) (s : σ) :
    effect (Pure.pure a : Action σ α) s = (.ok a, s) := rfl

/-- An action in sequence is its first step, and then the rest from where this left. -/
@[simp] theorem effect_bind (x : Action σ α) (f : α → Action σ β) (s : σ) :
    effect (x >>= f) s = andThen f (effect x s) := by
  change effect (Action.bind x f) s = _
  unfold effect Action.bind
  split <;> next h => simp only [h, andThen, effect]

@[simp] theorem effect_read (s : σ) : effect Action.read s = (.ok s, s) := rfl

@[simp] theorem effect_write (s s' : σ) : effect (Action.write s') s = (.ok (), s') := rfl

@[simp] theorem effect_fail (e : Failure) (s : σ) :
    effect (Action.fail e : Action σ α) s = (.error e, s) := rfl

@[simp] theorem effect_record (events : List Event) (s : σ) :
    effect (Action.record events) s = (.ok (), s) := rfl

@[simp] theorem effect_lift (x : Except Failure α) (s : σ) : effect (Action.lift x) s = (x, s) := by
  cases x <;> rfl

@[simp] theorem effect_ensuring (f : σ → σ) (x : Action σ α) (s : σ) :
    effect (Action.ensuring f x) s = ((effect x s).1, f (effect x s).2) := rfl

@[simp] theorem effect_ite (p : Prop) [Decidable p] (x y : Action σ α) (s : σ) :
    effect (if p then x else y) s = if p then effect x s else effect y s := by
  split <;> rfl

@[simp] theorem effect_inspected (v : Value) (s : σ) :
    effect (Action.inspected v) s = (v.inspected, s) := by
  simp [Action.inspected]

@[simp] theorem effect_displayed (v : Value) (s : σ) :
    effect (Action.displayed v) s = (v.displayed, s) := by
  simp [Action.displayed]

/-- The action leaves the state as it is. -/
def Keeps (x : Action σ α) : Prop := ∀ s, (effect x s).2 = s

/-- The action fails, and leaves the state as it is. -/
def Fails (x : Action σ α) (s : σ) : Prop := ∃ e, effect x s = (.error e, s)

theorem fails_fail (e : Failure) (s : σ) : Fails (Action.fail e : Action σ α) s := ⟨e, rfl⟩

/-- What follows a failing step is not reached. -/
theorem Fails.bind {x : Action σ α} {s : σ} (h : Fails x s) (f : α → Action σ β) :
    Fails (x >>= f) s := by
  obtain ⟨e, he⟩ := h
  exact ⟨e, by rw [effect_bind, he, andThen_error]⟩

/-- Whatever a step that keeps the state gives, the rest fails. -/
theorem Keeps.fails_bind {x : Action σ α} (hx : Keeps x) {f : α → Action σ β} {s : σ}
    (hf : ∀ a, Fails (f a) s) : Fails (x >>= f) s := by
  have hs := hx s
  rcases h : effect x s with ⟨e | a, s'⟩ <;> rw [h] at hs <;> cases hs
  · exact ⟨e, by rw [effect_bind, h, andThen_error]⟩
  · obtain ⟨e, he⟩ := hf a
    exact ⟨e, by rw [effect_bind, h, andThen_ok, he]⟩

theorem keeps_inspected (v : Value) : Keeps (Action.inspected v : Action σ Shown) := by
  intro s
  simp

theorem keeps_displayed (v : Value) : Keeps (Action.displayed v : Action σ Shown) := by
  intro s
  simp

theorem fails_refuse (v : Value) (problem : Shown → ArgumentProblem) (s : σ) :
    Fails (Action.refuse v problem : Action σ α) s := by
  apply (keeps_inspected v).fails_bind
  intro shown
  exact fails_fail _ s

/-- The action does the same in every state: it neither reads nor writes. -/
def Constant (x : Action σ α) : Prop := ∃ r, ∀ s, effect x s = (r, s)

theorem constant_inspected (v : Value) : Constant (Action.inspected v : Action σ Shown) :=
  ⟨v.inspected, fun s => effect_inspected v s⟩

theorem constant_displayed (v : Value) : Constant (Action.displayed v : Action σ Shown) :=
  ⟨v.displayed, fun s => effect_displayed v s⟩

theorem constant_lift (x : Except Failure α) : Constant (Action.lift x : Action σ α) :=
  ⟨x, fun s => effect_lift x s⟩

theorem constant_pure (a : α) : Constant (Pure.pure a : Action σ α) := ⟨.ok a, fun _ => rfl⟩

/-- Steps that look at no state make an action that looks at none. -/
theorem Constant.bind {x : Action σ α} (hx : Constant x) {f : α → Action σ β}
    (hf : ∀ a, Constant (f a)) : Constant (x >>= f) := by
  obtain ⟨r, hr⟩ := hx
  cases r with
  | error e => exact ⟨.error e, fun s => by rw [effect_bind, hr, andThen_error]⟩
  | ok a =>
    obtain ⟨r', hr'⟩ := hf a
    exact ⟨r', fun s => by rw [effect_bind, hr, andThen_ok, hr']⟩

theorem constant_refuse (v : Value) (problem : Shown → ArgumentProblem) :
    Constant (Action.refuse v problem : Action σ α) := by
  apply (constant_inspected v).bind
  intro shown
  exact ⟨.error _, fun _ => rfl⟩

end RowQuery.Action
