import RowQuery.Proofs.Query.Typing
import RowQuery.Proofs.Store.Refresh

/-!
# Failing calls

A call of a query checks its arguments before it writes, so a failing call leaves the query as it was.
There is one exception: a selection checks its fields one by one as it adds them, and the fields before
the first one that is refused stay selected.
-/

namespace RowQuery

open RowQuery.Action (effect)

set_option autoImplicit false

namespace Store

theorem listed_withQueries (f : Text → QueryHandle) (s : Store) (p : Parameter) :
    (s.withQueries f).listed p = (s.listed p).map (Value.withQueries f) := by
  unfold listed
  rw [get?_withQueries]
  cases s.get? (.text p.name) with
  | none => rfl
  | some e =>
    cases e with
    | commaList vs => exact Value.allWithQueries_eq_map vs
    | scalar | rowFilters => rfl

theorem selected_withQueries (f : Text → QueryHandle) (s : Store) :
    (s.withQueries f).selected = s.selected.map (Value.withQueries f) :=
  listed_withQueries f s .select

theorem Lists.withQueries {s : Store} {p : Parameter} (h : s.Lists p) (f : Text → QueryHandle) :
    (s.withQueries f).Lists p := by
  intro e he
  rw [get?_withQueries] at he
  obtain ⟨e', he', rfl⟩ := Option.map_eq_some_iff.1 he
  rw [Entry.kind_withQueries]
  exact h e' he'

/-- More selected fields come after those there are. -/
theorem selected_addSelected (s : Store) (vs : List Value) :
    (s.addSelected vs).selected = s.selected ++ vs := by
  cases vs with
  | nil => exact (List.append_nil _).symm
  | cons v vs => exact selected_put s _

end Store

namespace Query

/-- What a failing call leaves. -/
theorem effect_failed {family : Family} (hall : family.All Store.Typed) {self : Text} {c : Call}
    {e : Failure} (h : (effect (step self c) family).1 = .error e) :
    (effect (step self c) family).2 =
      ((family.refresh self).put self ((family.current self).addSelected c.accepted)).refresh self := by
  rw [step, Family.effect_upToDate] at h ⊢
  rcases call_cases self c (hall.refresh_typed self) (family.refresh_put_self self) with
    ⟨e', -, he⟩ | ⟨s, -, he⟩
  · rw [he, Family.get_refresh_self]
  · rw [he] at h
    cases h

/-- A failing call that accepted no field leaves its query as it was. -/
theorem current_failed {family : Family} (self : Text) :
    (((family.refresh self).put self ((family.current self).addSelected [])).refresh self).current
      self = family.current self := by
  have hput : (family.refresh self).put self (family.current self) = family.refresh self := by
    rw [← Family.get_refresh_self, Family.refresh_put_self]
  rw [Store.addSelected, hput, Family.current_refresh, Family.current_refresh]

/-- After any calls on queries that start empty, a failing call touches no other query. Its own keeps
its entries, in order, but for the fields that a selection accepted before it failed; so it is as it was
unless there are such fields. -/
theorem current_failed_run (steps : List (Text × Call)) {self : Text} {c : Call} {e : Failure}
    (h : (effect (step self c) (run Family.fresh steps)).1 = .error e) :
    let family := run Family.fresh steps
    let after := (effect (step self c) family).2
    (∀ other, other ≠ self → after.get other = family.get other) ∧
      after.current self =
        ((family.current self).addSelected c.accepted).withQueries after.handle ∧
      (after.current self = family.current self ↔ c.accepted = []) := by
  intro family after
  have hafter : after = _ := effect_failed (typed_runFrom typed_fresh steps) h
  have hcurrent : after.current self =
      ((family.current self).addSelected c.accepted).withQueries after.handle := by
    rw [hafter, Family.current_refresh_eq, Family.get_put_same]
  refine ⟨fun other ho => ?_, hcurrent, fun hsame => ?_, fun hnone => ?_⟩
  · rw [hafter]
    exact (Family.get_put_other ho _ _).trans
      ((Family.get_put_other ho _ _).trans (Family.get_put_other ho _ _))
  · -- Fields that were added would make the selection longer.
    have hlength : ((family.current self).selected.length + c.accepted.length) =
        (family.current self).selected.length := by
      have hselected := congrArg (fun s => (Store.selected s).length) (hcurrent.symm.trans hsame)
      simpa only [Store.selected_withQueries, Store.selected_addSelected, List.length_map,
        List.length_append] using hselected
    exact List.length_eq_zero_iff.1 (by omega)
  · rw [hafter, hnone]
    exact current_failed self

/-- A selection of two fields of which the second is refused. -/
def halfRefused : Call := .only [.ofString "name", .float .nan]

/-- A query with one selected field keeps it and gets the first of the two. -/
theorem current_failed_halfRefused :
    ∃ e, (effect (step "q" halfRefused) (run Family.fresh [("q", .only [.ofString "id"])])).1 =
        .error e ∧
      (effect (step "q" halfRefused) (run Family.fresh [("q", .only [.ofString "id"])])).2.current
          "q" ≠ (run Family.fresh [("q", .only [.ofString "id"])]).current "q" := by
  refine ⟨_, rfl, fun hsame => ?_⟩
  have hnone := (current_failed_run [("q", .only [.ofString "id"])] rfl).2.2.1 hsame
  cases hnone

/-- Not every failing call leaves the entries of its query. -/
theorem selection_not_atomic :
    ¬ ∀ (steps : List (Text × Call)) (self : Text) (c : Call) (e : Failure),
      (effect (step self c) (run Family.fresh steps)).1 = .error e →
        ((effect (step self c) (run Family.fresh steps)).2.current self).entries =
          ((run Family.fresh steps).current self).entries := by
  intro hatomic
  have hsame := hatomic [] "q" halfRefused _ rfl
  cases hsame

end Query

end RowQuery
