import Mathlib.Data.List.Forall2
import RowQuery.Filter.Checked
import RowQuery.Query.Handle

/-!
# Words and their wire forms

A word may be spelt out as the text of its wire form, at the top of a value or as an element of its
lists. What is checked of a value, and the JSON data that it stands for, are the same for both
spellings. A word at the top is spelt out before it is kept, so kept values have the same text too.
-/

namespace RowQuery

set_option autoImplicit false

namespace Value

mutual

/-- The second value is the first one with some words spelt out. -/
inductive Spells : Value → Value → Prop
  | same (v : Value) : Spells v v
  | word (w : Word) : Spells (.word w) (.text w.wire)
  | list {vs ws : List Value} (h : SpellsAll vs ws) : Spells (.list vs) (.list ws)

inductive SpellsAll : List Value → List Value → Prop
  | nil : SpellsAll [] []
  | cons {v w : Value} {vs ws : List Value} (h : Spells v w) (hs : SpellsAll vs ws) :
      SpellsAll (v :: vs) (w :: ws)

end

/-- The second value is the first one with some words in its lists spelt out. -/
inductive SpellsBelow : Value → Value → Prop
  | same (v : Value) : SpellsBelow v v
  | list {vs ws : List Value} (h : SpellsAll vs ws) : SpellsBelow (.list vs) (.list ws)

theorem SpellsBelow.spells {v w : Value} (h : SpellsBelow v w) : Spells v w := by
  cases h with
  | same => exact .same v
  | list h => exact .list h

theorem SpellsAll.refl (vs : List Value) : SpellsAll vs vs := by
  induction vs with
  | nil => exact .nil
  | cons v vs ih => exact .cons (.same v) ih

mutual

theorem Spells.isFinite : ∀ {v w : Value}, Spells v w → v.isFinite = w.isFinite
  | _, _, .same _ => rfl
  | _, _, .word _ => rfl
  | _, _, .list h => h.allFinite

theorem SpellsAll.allFinite : ∀ {vs ws : List Value}, SpellsAll vs ws →
    Value.allFinite vs = Value.allFinite ws
  | _, _, .nil => rfl
  | _, _, .cons h hs => by
    rw [Value.allFinite, Value.allFinite, h.isFinite, hs.allFinite]

end

mutual

/-- Words and their texts have the same JSON form. -/
theorem Spells.json_eq (rules : Json.Leniency) :
    ∀ {v w : Value}, Spells v w → Json.ofValue rules v = Json.ofValue rules w
  | _, _, .same _ => rfl
  | _, _, .word _ => rfl
  | _, _, .list h => by rw [Json.ofValue, Json.ofValue, h.json_eq rules]

theorem SpellsAll.json_eq (rules : Json.Leniency) :
    ∀ {vs ws : List Value}, SpellsAll vs ws → Json.ofValues rules vs = Json.ofValues rules ws
  | _, _, .nil => rfl
  | _, _, .cons h hs => by
    rw [Json.ofValues, Json.ofValues, h.json_eq rules, hs.json_eq rules]

end

mutual

theorem Spells.withQueries (f : Text → QueryHandle) :
    ∀ {v w : Value}, Spells v w → Spells (v.withQueries f) (w.withQueries f)
  | _, _, .same _ => .same _
  | _, _, .word w => .word w
  | _, _, .list h => .list (h.withQueries f)

theorem SpellsAll.withQueries (f : Text → QueryHandle) : ∀ {vs ws : List Value},
    SpellsAll vs ws → SpellsAll (allWithQueries f vs) (allWithQueries f ws)
  | _, _, .nil => .nil
  | _, _, .cons h hs => .cons (h.withQueries f) (hs.withQueries f)

end

theorem SpellsAll.forall₂ : ∀ {vs ws : List Value}, SpellsAll vs ws → List.Forall₂ Spells vs ws
  | _, _, .nil => .nil
  | _, _, .cons h hs => .cons h hs.forall₂

theorem SpellsAll.isEmpty {vs ws : List Value} (h : SpellsAll vs ws) : vs.isEmpty = ws.isEmpty := by
  cases h <;> rfl

namespace Spells

variable {v w : Value}

theorem isTruthy (h : Spells v w) : v.isTruthy = w.isTruthy := by
  cases h with
  | same => rfl
  | word => rfl
  | list h =>
    rw [Value.isTruthy, Value.isTruthy, h.isEmpty]

theorem looseText? (h : Spells v w) : v.looseText? = w.looseText? := by
  cases h <;> rfl

/-- What is kept of a value has its top spelt out. -/
theorem normalize (h : Spells v w) : SpellsBelow v.normalize w.normalize := by
  cases h with
  | same => exact .same _
  | word => exact .same _
  | list h => exact .list h

/-- An operand is kept of both spellings or of none. -/
theorem operand? (h : Spells v w) :
    v.operand? = none ∧ w.operand? = none ∨
      ∃ k l, v.operand? = some k ∧ w.operand? = some l ∧ SpellsBelow k l := by
  cases h with
  | same =>
    cases hv : v.operand? with
    | none => exact .inl ⟨rfl, rfl⟩
    | some k => exact .inr ⟨k, k, rfl, rfl, .same k⟩
  | word w => exact .inr ⟨_, _, rfl, rfl, .same _⟩
  | @list vs ws h => exact .inr ⟨.list vs, .list ws, rfl, rfl, .list h⟩

end Spells

namespace SpellsBelow

variable {v w : Value}

theorem isScalar (h : SpellsBelow v w) : Store.isScalar v = Store.isScalar w := by
  cases h <;> rfl

theorem render (h : SpellsBelow v w) : v.render = w.render := by
  cases h with
  | same => rfl
  | list h =>
    rw [Value.render, Value.render, toJsonText, toJsonText, (Spells.list h).json_eq]

theorem renderedQueries (h : SpellsBelow v w) : v.renderedQueries = w.renderedQueries := by
  cases h <;> rfl

theorem withQueries (f : Text → QueryHandle) (h : SpellsBelow v w) :
    SpellsBelow (v.withQueries f) (w.withQueries f) := by
  cases h with
  | same => exact .same _
  | list h => exact .list (h.withQueries f)

end SpellsBelow

end Value

end RowQuery
