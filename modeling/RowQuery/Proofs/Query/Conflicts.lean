import RowQuery.Proofs.Query.Leaves

/-!
# Where conflicts come from

A conflict is raised in two places of a store: where a value is added to a comma list, and where row
filters are written. Everything else that the methods of queries do fails in other ways, if it fails.
-/

namespace RowQuery

open RowQuery.Action (effect)

set_option autoImplicit false

theorem RenderFailure.kind_ne_conflict (f : RenderFailure) : f.kind ≠ .conflict := by
  cases f <;> simp [kind]

theorem ArgumentProblem.kind_ne_conflict (p : ArgumentProblem) :
    (Failure.argument p).kind ≠ .conflict := by
  simp [Failure.kind]

namespace Action

variable {σ α β : Type}

/-- The action raises no conflict. -/
def Peaceful (x : Action σ α) : Prop := ∀ s e, (effect x s).1 = .error e → e.kind ≠ .conflict

theorem peaceful_pure (a : α) : Peaceful (Pure.pure a : Action σ α) := by
  rintro _ _ ⟨⟩

theorem peaceful_fail {e : Failure} (h : e.kind ≠ .conflict) : Peaceful (fail e : Action σ α) := by
  rintro _ _ ⟨⟩
  exact h

theorem peaceful_read : Peaceful (read : Action σ σ) := by
  rintro _ _ ⟨⟩

theorem peaceful_record (events : List Event) : Peaceful (record events : Action σ Unit) := by
  rintro _ _ ⟨⟩

theorem peaceful_lift {x : Except Failure α} (h : ∀ e, x = .error e → e.kind ≠ .conflict) :
    Peaceful (lift x : Action σ α) := by
  intro s e he
  rw [effect_lift] at he
  exact h e he

/-- Steps that raise no conflict make an action that raises none. -/
theorem Peaceful.bind {x : Action σ α} {f : α → Action σ β} (hx : Peaceful x)
    (hf : ∀ a, Peaceful (f a)) : Peaceful (x >>= f) := by
  intro s e he
  rw [effect_bind] at he
  rcases h : effect x s with ⟨failed | a, s'⟩ <;> rw [h] at he
  · cases he
    exact hx s e (congrArg Prod.fst h)
  · exact hf a s' e he

theorem peaceful_inspected (v : Value) : Peaceful (inspected v : Action σ Shown) := by
  intro s e he
  rw [effect_inspected, Value.inspected] at he
  split at he
  · cases he
  · next f _ =>
    cases he
    exact f.kind_ne_conflict

theorem peaceful_displayed (v : Value) : Peaceful (displayed v : Action σ Shown) := by
  intro s e he
  rw [effect_displayed, Value.displayed] at he
  split at he
  · cases he
  · next f _ =>
    cases he
    exact f.kind_ne_conflict

theorem peaceful_refuse (v : Value) (problem : Shown → ArgumentProblem) :
    Peaceful (refuse v problem : Action σ α) := by
  apply (peaceful_inspected v).bind
  intro shown
  exact peaceful_fail (ArgumentProblem.kind_ne_conflict _)

end Action

namespace Store

open RowQuery.Action (Peaceful)

theorem peaceful_refuse {α : Type} (key v : Value) (problem : Shown → Shown → ArgumentProblem) :
    Peaceful (refuse key v problem : Action Store α) := by
  apply (Action.peaceful_displayed key).bind
  intro shownKey
  apply (Action.peaceful_inspected v).bind
  intro shown
  exact Action.peaceful_fail (ArgumentProblem.kind_ne_conflict _)

theorem peaceful_look (key : Value) : Peaceful (look key) := by
  unfold look
  split
  · exact Action.peaceful_fail (by simp [Failure.kind, Defect.kind])
  · exact (Action.peaceful_read).bind fun s => Action.peaceful_pure _

theorem peaceful_noteReplaced (key : Value) (old : Option Entry) :
    Peaceful (noteReplaced key old) := by
  unfold noteReplaced
  split
  · exact Action.peaceful_pure ()
  · exact Action.peaceful_pure ()
  · exact (Action.peaceful_displayed key).bind fun _ => Action.peaceful_record _

/-- A scalar takes the place of any entry. -/
theorem peaceful_set (key v : Value) : Peaceful (set key v) := by
  unfold set
  dsimp only
  split
  · exact peaceful_refuse _ _ _
  · split
    · exact peaceful_refuse _ _ _
    · apply (peaceful_look key).bind
      intro old
      apply (peaceful_noteReplaced key old).bind
      intro _ s e h
      rw [effect_save] at h
      cases h

/-- A conflict comes of an entry that is no comma list. -/
theorem conflict_of_append {key v : Value} {s : Store} {e : Failure}
    (h : (effect (append key v) s).1 = .error e) (hkind : e.kind = .conflict) :
    ∃ entry, s.get? key = some entry ∧ entry.kind ≠ .commaList := by
  unfold append at h
  dsimp only at h
  split at h
  · exact absurd hkind (peaceful_refuse _ _ _ s e h)
  · rw [Action.effect_bind] at h
    rcases look_cases key s with ⟨failed, he⟩ | ⟨-, he⟩ <;> rw [he] at h
    · cases h
      exact absurd hkind (peaceful_look key s e (congrArg Prod.fst he))
    · rw [Action.andThen_ok] at h
      cases hentry : s.get? key with
      | none =>
        rw [hentry] at h
        simp at h
      | some entry =>
        rw [hentry] at h
        cases entry with
        | commaList => simp at h
        | scalar | rowFilters => exact ⟨_, rfl, by simp [Entry.kind]⟩

end Store

namespace Query

open RowQuery.Action (Peaceful)

theorem peaceful_wholeNumber (name : Text) (v : Value) : Peaceful (wholeNumber name v) := by
  unfold wholeNumber
  split
  · exact Action.peaceful_pure _
  · split
    · exact Action.peaceful_pure _
    · exact Action.peaceful_refuse _ _
  · exact Action.peaceful_refuse _ _

theorem peaceful_checkWeight (name : Text) (v : Value) : Peaceful (checkWeight name v) := by
  unfold checkWeight
  split
  · exact Action.peaceful_pure _
  · split
    · exact Action.peaceful_pure _
    · exact Action.peaceful_refuse _ _
  · exact Action.peaceful_refuse _ _

theorem peaceful_renderWeight (v : Value) : Peaceful (renderWeight v) := by
  refine Action.peaceful_lift fun e he => ?_
  cases hv : v.render with
  | ok t => rw [hv] at he; cases he
  | error f =>
    rw [hv] at he
    cases he
    exact f.kind_ne_conflict

/-- An argument that is no query is no conflict. -/
theorem kind_of_sourceNames {vs : List Value} {e : Failure} (h : sourceNames vs = .error e) :
    e.kind ≠ .conflict := by
  induction vs generalizing e with
  | nil => cases h
  | cons v vs ih =>
    cases v with
    | query q =>
      rw [sourceNames] at h
      cases hrest : sourceNames vs with
      | ok => rw [hrest] at h; cases h
      | error e' =>
        rw [hrest] at h
        cases h
        exact ih hrest
    | _ =>
      cases h
      exact ArgumentProblem.kind_ne_conflict _

end Query

end RowQuery
