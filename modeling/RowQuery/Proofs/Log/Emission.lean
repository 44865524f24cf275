import Mathlib.Data.List.TakeWhile
import RowQuery.Log.Emission
import RowQuery.Proofs.Action

/-!
# Reports to the log

An event below the threshold is passed over. Any other event is recorded, and the call fails where something
that comes with it has the name of an attribute that every record has.
-/

namespace RowQuery

open RowQuery.Action (effect)

set_option autoImplicit false

namespace Event

/-- The names of what comes with an event. -/
def names (extra : List (Value × Value)) : List Text := extra.filterMap fun m => m.1.text?

/-- The first name that every record has already. -/
def taken? (extra : List (Value × Value)) : Option Text :=
  (names extra).find? (ownAttributes.map Text.ofString).contains

/-- The name for which the call that reports an event fails. -/
def refusal (threshold : Level) (e : Event) : Option Text :=
  if threshold.passes e.level then taken? e.extra else none

/-- What is recorded of an event: what comes with it before the first name that is taken. -/
def recorded (threshold : Level) (e : Event) : List Event :=
  if threshold.passes e.level then [{ e with extra := e.extra.takeWhile fun m => isFree m.1 }] else []

theorem names_cons (m : Value × Value) (extra : List (Value × Value)) :
    names (m :: extra) = m.1.text?.toList ++ names extra := by
  unfold names
  cases h : m.1.text? <;> simp [h]

/-- A value is free unless it is a name that every record has. -/
theorem isFree_iff {v : Value} :
    isFree v = true ↔ ∀ name, v.text? = some name → name ∉ ownAttributes.map Text.ofString := by
  unfold isFree
  cases v.text? <;> simp

theorem taken?_cons (m : Value × Value) (extra : List (Value × Value)) :
    taken? (m :: extra) = if isFree m.1 then taken? extra else m.1.text? := by
  unfold taken?
  rw [names_cons]
  cases hname : m.1.text? with
  | none =>
    have hfree : isFree m.1 = true := isFree_iff.2 fun name h => by
      rw [hname] at h
      cases h
    rw [if_pos hfree]
    rfl
  | some t =>
    by_cases ht : t ∈ ownAttributes.map Text.ofString
    · rw [if_neg fun hfree => isFree_iff.1 hfree t hname ht]
      exact List.find?_cons_of_pos (List.contains_iff_mem.2 ht)
    · have hfree : isFree m.1 = true := isFree_iff.2 fun name h => by
        rw [hname] at h
        cases h
        exact ht
      rw [if_pos hfree]
      exact List.find?_cons_of_neg (mt List.contains_iff_mem.1 ht)

/-- No name is taken where all are free. -/
theorem taken?_eq_none {extra : List (Value × Value)} (h : ∀ m ∈ extra, isFree m.1 = true) :
    taken? extra = none := by
  induction extra with
  | nil => rfl
  | cons m extra ih =>
    obtain ⟨hm, hextra⟩ := List.forall_mem_cons.1 h
    rw [taken?_cons, if_pos hm, ih hextra]

/-- Where the names that come with an event are settled, the first that is taken is found. -/
theorem settle_taken (extra : List (Value × Value)) : (settle extra).2.bind Value.text? = taken? extra := by
  induction extra with
  | nil => rfl
  | cons m extra ih =>
    rw [taken?_cons]
    unfold settle at ih ⊢
    cases hfree : isFree m.1 with
    | true => simpa [hfree] using ih
    | false => simp [hfree]

end Event

namespace Action

variable {σ : Type}

/-- Reporting an event keeps the state, and fails for a name that is taken. -/
theorem emit_eq (threshold : Level) (e : Event) (s : σ) :
    emit threshold e s =
      ⟨(e.refusal threshold).elim (.ok ()) fun name => .error (.defect (.attributeTaken name)), s,
        e.recorded threshold⟩ := by
  unfold emit Event.refusal Event.recorded
  cases threshold.passes e.level with
  | false => rfl
  | true =>
    have htaken := Event.settle_taken e.extra
    have hkept : (Event.settle e.extra).1 = e.extra.takeWhile fun m => Event.isFree m.1 := rfl
    rcases hsettle : Event.settle e.extra with ⟨kept, taken⟩
    rw [hsettle] at htaken hkept
    simp only [Bool.not_true, Bool.false_eq_true, if_false, if_true, ← hkept, ← htaken]
    cases taken.bind Value.text? <;> rfl

/-- An event is recorded, or passed over, where what comes with it takes no name of a record. -/
theorem effect_emit {threshold : Level} {e : Event} (h : ∀ m ∈ e.extra, Event.isFree m.1 = true) (s : σ) :
    effect (emit threshold e) s = (.ok (), s) := by
  have hrefusal : e.refusal threshold = none := by
    rw [Event.refusal, Event.taken?_eq_none h, ite_self]
  rw [effect, emit_eq, hrefusal]
  rfl

end Action

end RowQuery
