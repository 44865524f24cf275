import RowQuery.Proofs.Filter.Reading
import RowQuery.Proofs.Store.Operations
import RowQuery.Proofs.Value.Inspection

/-!
# Folding row filters

What a fold of a store does, where the combinator is any value and the sources are any stores of a
family, the store itself among them. Main statement: a fold is refused, has nothing to do, meets
another kind of entry, or puts one group of all row filters in the place of those of the store. In the
first three cases no store changes, and in the last one only this entry does.
-/

namespace RowQuery

open RowQuery.Action (effect)

set_option autoImplicit false

namespace Combinator

/-- A value names no combinator. -/
def IsNone (v : Value) : Prop := ∀ c : Combinator, v.normalize ≠ .text c.wire

theorem text?_ofWire? {v : Value} (h : IsNone v) : v.normalize.text?.bind ofWire? = none := by
  cases hv : v.normalize with
  | text t =>
    apply RowFilter.ofWire?_eq_none.2
    intro c ht
    exact h c (ht ▸ hv)
  | word w => cases v <;> cases hv
  | _ => rfl

/-- The error of a value that names no combinator is that of a bad value, unless the message would
show a query that has no text itself. -/
theorem failsOnly_inspected (v : Value) (e : Failure)
    (h : (v.normalize.inspected >>= fun shown => .error (.defect (.badCombinator shown))) =
      (.error e : Except Failure Combinator)) :
    .value ∈ e.kind.lineage ∨ ∃ q ∈ v.shownQueries, ∃ f, q.text = .error f ∧ e = f := by
  have hqueries : v.normalize.shownQueries = v.shownQueries := by cases v <;> rfl
  rw [Value.inspected] at h
  cases hv : v.normalize.inspect with
  | ok t =>
    rw [hv] at h
    cases h
    exact .inl List.mem_cons_self
  | error f =>
    rw [hv] at h
    cases h
    rcases Value.failsOnly_inspect v.normalize f hv with rfl | ⟨q, hq, ht⟩
    · exact .inl List.mem_cons_self
    · exact .inr ⟨q, hqueries ▸ hq, f, ht, rfl⟩

end Combinator

namespace Family

/-- Stores of a family, listed as a value. -/
def listed (family : Family) (names : List Text) : Value :=
  .list (names.map fun name => .store name (family.get name).keys)

/-- The row filters that a fold gathers: those of the store, then those of each other source, as
often and in the order in which the sources are given. -/
def gathered (family : Family) (self : Text) (names : List Text) : List RowFilter :=
  (family.get self).rowFilters ++
    (names.filter (· ≠ self)).flatMap fun name => (family.get name).rowFilters

/-- Of the listed stores the fold takes the row filters of all but its own. -/
theorem sourceFilters_stores (family : Family) (self : Text) (names : List Text) :
    (family.listed names).loop >>= family.sourceFilters self = .ok (family.joined self names) := by
  change family.sourceFilters self (names.map fun name => .store name (family.get name).keys) = _
  unfold joined
  induction names with
  | nil => rfl
  | cons name names ih =>
    rw [List.map_cons, sourceFilters, ih]
    by_cases hname : name = self
    · simp [Except.map, hname]
    · simp [Except.map, hname]

def Same (family after : Family) : Prop := ∀ name, after.get name = family.get name

/-- The store has the row filters in place of its own ones: their key keeps its place or comes last,
and all other entries stay where they are. -/
structure Regrouped (s after : Store) (filters : List RowFilter) : Prop where
  rowFilterKey : after.rowFilterKey = s.rowFilterKey
  rowFilters : after.rowFilters = filters
  present : some s.rowFilterKey ∈ s.keys.map Value.text? → after.keys = s.keys
  absent : some s.rowFilterKey ∉ s.keys.map Value.text? →
    after.keys = s.keys ++ [.text s.rowFilterKey]
  others : ∀ (i : Nat) (m : Value × Entry), s.entries[i]? = some m →
    m.1.text? ≠ some s.rowFilterKey → after.entries[i]? = some m

/-- What a fold of a store returns and leaves. -/
structure Folds (family : Family) (self : Text) (combinator : Value) (names : List Text)
    (after : Except Failure (Option RowFilter) × Family) : Prop where
  refused : Combinator.IsNone combinator → family.Same after.2 ∧ ∃ e, after.1 = .error e ∧
    (.value ∈ e.kind.lineage ∨ ∃ q ∈ combinator.shownQueries, ∃ f, q.text = .error f ∧ e = f)
  idle : ∀ c : Combinator, combinator.normalize = .text c.wire → family.gathered self names = [] →
    family.Same after.2 ∧ after.1 = .ok none
  blocked : ∀ c : Combinator, combinator.normalize = .text c.wire →
    family.gathered self names ≠ [] → ∀ e,
      (family.get self).get? (.text (family.get self).rowFilterKey) = some e →
      e.kind ≠ .rowFilters → family.Same after.2 ∧ ∃ key, after.1 = .error (.conflict key e.kind)
  grouped : ∀ c : Combinator, combinator.normalize = .text c.wire →
    family.gathered self names ≠ [] → (family.get self).Open →
      after.1 = .ok (some (.group c (family.gathered self names))) ∧
      Regrouped (family.get self) (after.2.get self) [.group c (family.gathered self names)] ∧
      ∀ other, other ≠ self → after.2.get other = family.get other

end Family

namespace Store

/-- A put leaves every entry of another key in its place. -/
theorem getElem?_insertEntry_other {es : List (Value × Entry)} {key : Value} (e : Entry) {i : Nat}
    {m : Value × Entry} (h : es[i]? = some m) (hm : Value.sameKey m.1 key = false) :
    (insertEntry es key e)[i]? = some m := by
  induction es generalizing i with
  | nil => cases h
  | cons n es ih =>
    obtain ⟨k, old⟩ := n
    rw [insertEntry]
    cases i with
    | zero =>
      cases h
      rw [hm]
      rfl
    | succ i =>
      split
      · exact h
      · exact ih h

/-- New row filters stand where the old ones were, or last. -/
theorem regrouped_putRowFilters (s : Store) (filters : List RowFilter) :
    Family.Regrouped s (s.putRowFilters filters) filters := by
  have hmem : (s.keys.any fun k => Value.sameKey k (.text s.rowFilterKey)) = true ↔
      some s.rowFilterKey ∈ s.keys.map Value.text? := by
    simp [List.any_eq_true, Value.sameKey_text_iff]
  constructor
  · rfl
  · exact rowFilters_putRowFilters s filters
  · intro h
    rw [putRowFilters, keys_put, addKey, if_pos (hmem.2 h)]
  · intro h
    rw [putRowFilters, keys_put, addKey, if_neg (mt hmem.1 h)]
  · intro i m hi hne
    apply getElem?_insertEntry_other _ hi
    rw [← Bool.not_eq_true, Value.sameKey_text_iff]
    exact hne

/-- Another kind of entry under the key of the row filters is reported, and nothing is written. -/
theorem effect_fold_blocked {s : Store} {c : Combinator} {joined : List RowFilter} {e : Entry}
    (hne : s.rowFilters ++ joined ≠ []) (he : s.get? (.text s.rowFilterKey) = some e)
    (hkind : e.kind ≠ .rowFilters) :
    effect (fold c joined) s =
      (.error (.conflict ⟨.text s.rowFilterKey, s.rowFilterKey⟩ e.kind), s) := by
  have hopen := effect_openRowFilters_blocked he hkind
  have hempty : ¬ (s.rowFilters ++ joined).isEmpty = true := fun h => hne (List.isEmpty_iff.1 h)
  simp only [fold, Action.effect_bind, Action.effect_read, Action.andThen_ok, Action.effect_ite,
    hempty, hopen, Action.andThen_error]
  rfl

end Store

namespace Family

/-- Once the combinator and the sources are read, a fold works on the one store. -/
theorem effect_foldValues {family : Family} {self : Text} {combinator : Value} {c : Combinator}
    (hc : combinator.normalize = .text c.wire) (names : List Text) :
    effect (foldValues self combinator (family.listed names)) family =
      let o := effect (Store.fold c (family.joined self names)) (family.get self)
      (o.1, family.put self o.2) := by
  have hcombinator : combinator.normalize.text?.bind Combinator.ofWire? = some c := by
    rw [hc]
    exact RowFilter.ofWire?_eq_some.2 rfl
  simp only [foldValues, Action.effect_bind, Store.effect_ofValue_some hcombinator,
    Action.andThen_ok, Action.effect_read, sourceFilters_stores, Action.effect_lift, effect_focus]

theorem same_put_get (family : Family) (self : Text) :
    family.Same (family.put self (family.get self)) :=
  Store.Operation.get_put_get family self

/-- Whatever the combinator is and whichever stores are the sources, a fold either leaves all stores as
they are, and says why, or it puts the one group of all gathered row filters. -/
theorem folds_foldValues (family : Family) (self : Text) (combinator : Value) (names : List Text) :
    family.Folds self combinator names
      (effect (foldValues self combinator (family.listed names)) family) := by
  constructor
  · intro hnone
    rw [Store.effect_foldValues_none (Combinator.text?_ofWire? hnone)]
    refine ⟨fun _ => rfl, ?_⟩
    have hfails := Combinator.failsOnly_inspected combinator
    cases hshown : combinator.normalize.inspected with
    | ok shown => exact ⟨_, rfl, hfails _ (by rw [hshown]; rfl)⟩
    | error e => exact ⟨e, rfl, hfails e (by rw [hshown]; rfl)⟩
  · intro c hc hempty
    rcases Store.fold_cases c (family.joined self names) (family.get self) with
      ⟨-, he⟩ | ⟨hne, -⟩
    · rw [effect_foldValues hc, he]
      exact ⟨family.same_put_get self, rfl⟩
    · exact absurd hempty hne
  · intro c hc hne e he hkind
    have hrun : effect (Store.fold c (family.joined self names)) (family.get self) = _ :=
      Store.effect_fold_blocked hne he hkind
    rw [effect_foldValues hc, hrun]
    exact ⟨family.same_put_get self, _, rfl⟩
  · intro c hc hne hopen
    rcases Store.fold_cases c (family.joined self names) (family.get self) with
      ⟨hempty, -⟩ | ⟨-, ⟨hblocked, -⟩ | ⟨-, he⟩⟩
    · exact absurd hempty hne
    · exact absurd hopen hblocked
    · rw [effect_foldValues hc, he]
      refine ⟨rfl, ?_, fun other ho => get_put_other ho _ _⟩
      rw [get_put_same]
      exact Store.regrouped_putRowFilters _ _

/-- A store and the query of another one, whose scalar holds a set and has no JSON text. -/
def withUnwritten : Family :=
  (effect (focus "p" (Store.set (.ofString "q") (.list [.set [.int 1]]))) ⟨[]⟩).2

/-- A query names no combinator. Where it has no text its own error comes out in place of the one that would
show it, and this need not be the error of a bad value. -/
theorem folds_withUnwritten :
    Combinator.IsNone (.query (withUnwritten.handle "p")) ∧
    ∃ e, (effect (foldValues "a" (.query (withUnwritten.handle "p")) (withUnwritten.listed []))
      withUnwritten).1 = .error e ∧ .value ∉ e.kind.lineage := by
  refine ⟨fun c h => ?_, .defect (.unrenderable (.notSerializable "set")), rfl, by decide⟩
  cases h

end Family

end RowQuery
