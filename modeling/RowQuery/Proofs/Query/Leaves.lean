import RowQuery.Proofs.Query.Runs

/-!
# Leaves of queries

The leaves of a query are the predicates in its row filters, from left to right and at any depth of
groups. Adding a row filter appends its leaves, a fold appends the leaves of the other queries that
it reads, and nothing else changes them. Main statement: apart from folds, a call works on its query
alone, and there it fails or appends the row filters that it adds.
-/

namespace RowQuery

open RowQuery.Action (effect Fails Keeps)
open Value (sameKey)

set_option autoImplicit false

namespace RowFilter

mutual

/-- The predicates in a row filter, from left to right. -/
def leaves : RowFilter → List RowFilter
  | field key operator v => [field key operator v]
  | group _ fs => leavesOf fs

def leavesOf : List RowFilter → List RowFilter
  | [] => []
  | f :: fs => leaves f ++ leavesOf fs

end

@[simp] theorem leavesOf_append (fs gs : List RowFilter) :
    leavesOf (fs ++ gs) = leavesOf fs ++ leavesOf gs := by
  induction fs with
  | nil => rfl
  | cons f fs ih => rw [List.cons_append, leavesOf, leavesOf, ih, List.append_assoc]

@[simp] theorem leavesOf_singleton (f : RowFilter) : leavesOf [f] = f.leaves := by
  rw [leavesOf, leavesOf, List.append_nil]

theorem leavesOf_flatMap {α : Type} (xs : List α) (f : α → List RowFilter) :
    leavesOf (xs.flatMap f) = xs.flatMap fun x => leavesOf (f x) := by
  induction xs with
  | nil => rfl
  | cons x xs ih => rw [List.flatMap_cons, leavesOf_append, ih, List.flatMap_cons]

end RowFilter

open RowFilter (leavesOf)

namespace Store

def leaves (s : Store) : List RowFilter := leavesOf s.rowFilters

/-! ## Methods that only write parameters -/

/-- A store of a query: its row filters stand under the default key. -/
def IsQuery (s : Store) : Prop := s.rowFilterKey = Family.defaultKey

/-- An action that changes neither the row filters of a query nor their key. -/
def Spares {α : Type} (x : Action Store α) : Prop :=
  ∀ s : Store, s.IsQuery → (effect x s).2.IsQuery ∧ (effect x s).2.rowFilters = s.rowFilters

variable {α β : Type}

theorem Spares.of_keeps {x : Action Store α} (hx : Keeps x) : Spares x := by
  intro s hs
  rw [hx s]
  exact ⟨hs, rfl⟩

/-- Steps that spare the row filters make an action that spares them. -/
theorem Spares.bind {x : Action Store α} {f : α → Action Store β} (hx : Spares x)
    (hf : ∀ a, Spares (f a)) : Spares (x >>= f) := by
  intro s hs
  obtain ⟨hq, hr⟩ := hx s hs
  rw [Action.effect_bind]
  rcases h : effect x s with ⟨e | a, s'⟩ <;> rw [h] at hq hr
  · exact ⟨hq, hr⟩
  · obtain ⟨hq', hr'⟩ := hf a s' hq
    exact ⟨hq', hr'.trans hr⟩

theorem Spares.forEach {f : α → Action Store Unit} (hf : ∀ a, Spares (f a)) (xs : List α) :
    Spares (Action.forEach f xs) := by
  induction xs with
  | nil => exact fun s hs => ⟨hs, rfl⟩
  | cons x xs ih => exact Spares.bind (hf x) fun _ => ih

theorem spares_of_fails {x : Action Store α} {s : Store} (h : Fails x s) (hs : s.IsQuery) :
    (effect x s).2.IsQuery ∧ (effect x s).2.rowFilters = s.rowFilters := by
  obtain ⟨e, he⟩ := h
  rw [he]
  exact ⟨hs, rfl⟩

theorem rowFilters_put_parameter {s : Store} (hs : s.IsQuery) {p : Parameter} (hp : p ≠ .filters)
    (e : Entry) : (s.put (.text p.name) e).rowFilters = s.rowFilters := by
  apply rowFilters_put
  rw [hs, Value.sameKey_text]
  cases p <;> first | rfl | exact absurd rfl hp

/-- Writing another parameter spares the row filters. -/
theorem spares_setParameter {p : Parameter} (hp : p ≠ .filters) (v : Value) :
    Spares (Query.setParameter p v) := by
  intro s hs
  rcases set_cases (.text p.name) v s with hf | ⟨-, -, -, he⟩
  · exact spares_of_fails hf hs
  · unfold Query.setParameter
    rw [he]
    exact ⟨hs, rowFilters_put_parameter hs hp _⟩

theorem spares_appendParameter {p : Parameter} (hp : p ≠ .filters) (v : Value) :
    Spares (Query.appendParameter p v) := by
  intro s hs
  rcases append_cases (.text p.name) v s with hf | ⟨-, -, values, -, he⟩
  · exact spares_of_fails hf hs
  · unfold Query.appendParameter
    rw [he]
    exact ⟨hs, rowFilters_put_parameter hs hp _⟩

/-! ## Methods that add a row filter -/

/-- On a query the action fails and spares the row filters, or it appends the given ones, which must
then exist. -/
def Appends (x : Action Store Unit) (filters? : Option (List RowFilter)) : Prop :=
  ∀ s : Store, s.IsQuery → (effect x s).2.IsQuery ∧
    ((∃ e, (effect x s).1 = .error e) ∧ (effect x s).2.rowFilters = s.rowFilters ∨
      (effect x s).1 = .ok () ∧ ∃ filters, filters? = some filters ∧
        (effect x s).2.rowFilters = s.rowFilters ++ filters)

theorem Spares.appends {x : Action Store Unit} (hx : Spares x) : Appends x (some []) := by
  intro s hs
  obtain ⟨hq, hr⟩ := hx s hs
  refine ⟨hq, ?_⟩
  cases h : (effect x s).1 with
  | error e => exact .inl ⟨⟨e, rfl⟩, hr⟩
  | ok => exact .inr ⟨rfl, [], rfl, by rw [hr, List.append_nil]⟩

theorem appends_of_fails {x : Action Store Unit} (hx : ∀ s, Fails x s)
    (filters? : Option (List RowFilter)) : Appends x filters? := by
  intro s hs
  obtain ⟨e, he⟩ := hx s
  rw [he]
  exact ⟨hs, .inl ⟨⟨e, rfl⟩, rfl⟩⟩

theorem appends_addRowFilter (f : RowFilter) : Appends (addRowFilter f) (some [f]) := by
  intro s hs
  rcases addRowFilter_cases f s with ⟨-, e, he⟩ | ⟨-, he⟩ <;> rw [he]
  · exact ⟨hs, .inl ⟨⟨e, rfl⟩, rfl⟩⟩
  · exact ⟨hs, .inr ⟨rfl, [f], rfl, rowFilters_putRowFilters s _⟩⟩

end Store

namespace Query

open Store (Spares Appends)

theorem keeps_refuse {α : Type} (v : Value) (problem : Shown → ArgumentProblem) :
    Keeps (Action.refuse v problem : Action Store α) := by
  intro s
  obtain ⟨e, he⟩ := Action.fails_refuse (α := α) v problem s
  rw [he]

theorem keeps_wholeNumber (name : Text) (v : Value) : Keeps (wholeNumber name v) := by
  unfold wholeNumber
  split
  · exact fun s => rfl
  · split
    · exact fun s => rfl
    · exact keeps_refuse _ _
  · exact keeps_refuse _ _

theorem keeps_checkWeight (name : Text) (v : Value) : Keeps (checkWeight name v) := by
  unfold checkWeight
  split
  · exact fun s => rfl
  · split
    · exact fun s => rfl
    · exact keeps_refuse _ _
  · exact keeps_refuse _ _

theorem keeps_renderWeight (v : Value) : Keeps (renderWeight v) := fun s => by simp [renderWeight]

theorem spares_limit (v : Value) : Spares (limit v) := by
  apply (Spares.of_keeps (keeps_wholeNumber _ v)).bind
  intro n
  exact Store.spares_setParameter (by decide) _

theorem spares_offset (v : Value) : Spares (offset v) := by
  apply (Spares.of_keeps (keeps_wholeNumber _ v)).bind
  intro n
  exact Store.spares_setParameter (by decide) _

theorem spares_searchExact (term : Value) : Spares (searchExact term) := by
  apply (Spares.of_keeps (Action.keeps_displayed term)).bind
  intro shown
  exact Store.spares_setParameter (by decide) _

theorem spares_sort (direction : Direction) (field : Value) : Spares (sort direction field) := by
  apply (Spares.of_keeps (Action.keeps_displayed field)).bind
  intro shown
  exact Store.spares_appendParameter (by decide) _

theorem spares_sortBlend (rank distance : Value) : Spares (sortBlend rank distance) := by
  apply (Spares.of_keeps (keeps_checkWeight _ rank)).bind
  intro _
  apply (Spares.of_keeps (keeps_checkWeight _ distance)).bind
  intro _
  apply (Spares.of_keeps (keeps_renderWeight rank)).bind
  intro rankText
  apply (Spares.of_keeps (keeps_renderWeight distance)).bind
  intro distanceText
  exact Store.spares_appendParameter (by decide) _

theorem spares_only (fields : List Value) : Spares (only fields) :=
  Spares.forEach (fun _ => Store.spares_appendParameter (by decide) _) _

/-- The predicate that a field builder makes of its field, its operator and an operand. -/
def predicate? (key : Value) (operator : Operator) (operand : Value) : Option RowFilter := do
  let k ← key.looseText?
  let v ← operand.operand?
  some (.field k (some operator.wire) v)

def predicateParts (key : Value) (operator : Operator) (operand : Value) : RowFilter.Parts :=
  [(.ofString "key", key), (.ofString "operator", .word (.operator operator)),
    (.ofString "value", operand)]

/-- The field builder checks its field and its operand. -/
theorem makeField_predicateParts_eq (key : Value) (operator : Operator) (operand : Value) :
    RowFilter.makeField (predicateParts key operator operand) =
      match RowFilter.checkKey (some key), RowFilter.checkValue (some operand) with
      | .ok k, .ok v => .ok (.field k (some operator.wire) v)
      | k, v => .error (RowFilter.invalid (RowFilter.problem k ++ RowFilter.problem v)) := by
  have hkind : RowFilter.part? (predicateParts key operator operand) .kind = none := rfl
  have hkey : RowFilter.part? (predicateParts key operator operand) .key = some key := rfl
  have hoperator : RowFilter.part? (predicateParts key operator operand) .operator =
    some (.word (.operator operator)) := rfl
  have hvalue : RowFilter.part? (predicateParts key operator operand) .value = some operand := rfl
  unfold RowFilter.makeField RowFilter.fieldOfParts
  rw [hkind, hkey, hoperator, hvalue]
  cases RowFilter.checkKey (some key) <;> cases RowFilter.checkValue (some operand) <;> rfl

/-- The field builder fails or makes the predicate. -/
theorem makeField_predicateParts (key : Value) (operator : Operator) (operand : Value) :
    (∃ e, RowFilter.makeField (predicateParts key operator operand) = .error e) ∨
      ∃ f, predicate? key operator operand = some f ∧
        RowFilter.makeField (predicateParts key operator operand) = .ok f := by
  rw [makeField_predicateParts_eq]
  unfold predicate? RowFilter.checkKey RowFilter.checkValue
  simp only [Option.bind_some, Option.getD_some]
  cases key.looseText? with
  | none => exact .inl ⟨_, rfl⟩
  | some k =>
    cases operand.operand? with
    | none => exact .inl ⟨_, rfl⟩
    | some v =>
      cases hv : v.isFinite with
      | true => exact .inr ⟨_, rfl, by simp only [hv]; rfl⟩
      | false => exact .inl ⟨_, by simp only [hv]; rfl⟩

/-- A field builder adds its predicate, or fails. -/
theorem appends_addPredicate (key : Value) (operator : Operator) (operand : Value) :
    Appends (addPredicate key operator operand)
      ((predicate? key operator operand).map fun f => [f]) := by
  unfold addPredicate
  split
  · exact Store.appends_of_fails (Store.fails_refuse key operand _) _
  · rcases makeField_predicateParts key operator operand with ⟨e, he⟩ | ⟨f, hf, he⟩
    · refine Store.appends_of_fails (fun s => ⟨e, ?_⟩) _
      change effect
        (Action.lift (RowFilter.makeField (predicateParts key operator operand)) >>= _) s = _
      rw [he]
      rfl
    · change Appends
        (Action.lift (RowFilter.makeField (predicateParts key operator operand)) >>= _) _
      rw [he, hf]
      exact Store.appends_addRowFilter f

theorem appends_within (shape : Value) :
    Appends (within shape) (shape.shapeFilter?.map fun f => [f]) := by
  unfold within
  cases shape.shapeFilter? with
  | none => exact Store.appends_of_fails (Action.fails_fail _) _
  | some f => exact Store.appends_addRowFilter f

/-! ## Calls -/

namespace Call

/-- The row filters that a call adds to its query where it succeeds. -/
def additions? : Call → Option (List RowFilter)
  | within shape => shape.shapeFilter?.map fun f => [f]
  | addFilter (.filter f) => some [f]
  | addFilter _ => none
  | predicate key operator operand => (predicate? key operator operand).map fun f => [f]
  | predicateAny key operator operands =>
    (predicate? key operator (.list (flatten operands))).map fun f => [f]
  | _ => some []

/-- The queries whose row filters a call joins to those of its own, in order. -/
def sources : Call → List Text
  | fold _ queries => (flatten queries).filterMap fun
    | .query q => some q.name
    | _ => none
  | _ => []

/-- Apart from folds, a call works on its query alone. -/
theorem run_eq_focus (c : Call) : (∃ k queries, c = fold k queries) ∨
    c.sources = [] ∧ ∃ x, Appends x c.additions? ∧ ∀ self, c.run self = Family.focus self x := by
  cases c with
  | fold k queries => exact .inl ⟨k, queries, rfl⟩
  | limit v => exact .inr ⟨rfl, _, (spares_limit v).appends, fun _ => rfl⟩
  | offset v => exact .inr ⟨rfl, _, (spares_offset v).appends, fun _ => rfl⟩
  | search term =>
    exact .inr ⟨rfl, _, (Store.spares_setParameter (by decide) term).appends, fun _ => rfl⟩
  | searchExact term => exact .inr ⟨rfl, _, (spares_searchExact term).appends, fun _ => rfl⟩
  | within shape => exact .inr ⟨rfl, _, appends_within shape, fun _ => rfl⟩
  | sort direction field => exact .inr ⟨rfl, _, (spares_sort direction field).appends, fun _ => rfl⟩
  | sortBlend rank distance =>
    exact .inr ⟨rfl, _, (spares_sortBlend rank distance).appends, fun _ => rfl⟩
  | only fields => exact .inr ⟨rfl, _, (spares_only fields).appends, fun _ => rfl⟩
  | includeRowCount wanted =>
    exact .inr ⟨rfl, _, (Store.spares_setParameter (by decide) _).appends, fun _ => rfl⟩
  | threshold v =>
    exact .inr ⟨rfl, _, (Store.spares_setParameter (by decide) v).appends, fun _ => rfl⟩
  | addFilter f =>
    refine .inr ⟨by cases f <;> rfl, _, ?_, fun _ => rfl⟩
    cases f with
    | filter f => exact Store.appends_addRowFilter f
    | _ => exact Store.appends_of_fails (Action.fails_fail _) _
  | predicate key operator operand =>
    exact .inr ⟨rfl, _, appends_addPredicate key operator operand, fun _ => rfl⟩
  | predicateAny key operator operands =>
    exact .inr ⟨rfl, _, appends_addPredicate key operator (.list (flatten operands)), fun _ => rfl⟩

end Call

end Query

end RowQuery
