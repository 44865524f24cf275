import RowQuery.Proofs.Store.Operations

/-!
# Failing calls of stores

A call of a store checks its arguments and the entry that it is about to write before it writes anything.
Main statement: whatever a call is given, if it fails then its store and all others hold what they held, and
no list that was to be filled is left empty.
-/

namespace RowQuery

open RowQuery.Action (effect)

set_option autoImplicit false

/-- A list in the entry is not empty. -/
def Entry.Filled : Entry → Prop
  | scalar _ => True
  | commaList vs => vs ≠ []
  | rowFilters fs => fs ≠ []

theorem Entry.Filled.withQueries {e : Entry} (h : e.Filled) (f : Text → QueryHandle) :
    (e.withQueries f).Filled := by
  cases e with
  | scalar => trivial
  | commaList vs =>
    simpa only [Entry.withQueries, Filled, Value.allWithQueries_eq_map, ne_eq, List.map_eq_nil_iff]
      using h
  | rowFilters fs => exact h

namespace Store

/-- No list in the store is empty. -/
def Filled (s : Store) : Prop := ∀ m ∈ s.entries, m.2.Filled

namespace Operation

/-- A call that writes leaves no empty list. -/
theorem Writes.filled {family : Family} {self : Text} {op : Operation} {r : Option RowFilter}
    {key : Value} {e : Entry} (h : Writes family self op r key e) : e.Filled := by
  cases h with
  | scalar => trivial
  | commaList => exact List.append_ne_nil_of_right_ne_nil _ (List.cons_ne_nil _ _)
  | rowFilter => exact List.append_ne_nil_of_right_ne_nil _ (List.cons_ne_nil _ _)
  | group => exact List.cons_ne_nil _ _

theorem filled_keptBy (op : Operation) : KeptBy Store.Filled op where
  update _ f _ hs m hm := by
    obtain ⟨n, hn, rfl⟩ := List.mem_map.1 hm
    exact (hs n hn).withQueries f
  write _ self hall _ _ _ hwrites := forall_mem_put (hall self) fun _ _ => hwrites.filled

/-- A call touches no store but its own. -/
theorem run_puts (self : Text) (op : Operation) (family : Family) :
    (effect (op.run self) family).2 = family ∨
      ∃ s, (effect (op.run self) family).2 = family.put self s := by
  cases op with
  | set | append | addRowFilter =>
    rw [run, effect_focus_none]
    exact .inr ⟨_, rfl⟩
  | fold combinator sources =>
    rw [run]
    rcases foldValues_cases self combinator sources family with ⟨e, he⟩ | ⟨c, joined, -, he⟩ <;> rw [he]
    · exact .inl rfl
    · exact .inr ⟨_, rfl⟩

/-- A failing call leaves the family, up to an own store that is put where it was. -/
theorem run_failed {self : Text} {op : Operation} {family : Family} {e : Failure}
    (hput : family.put self (family.get self) = family)
    (h : (effect (op.run self) family).1 = .error e) : (effect (op.run self) family).2 = family := by
  have hget : (effect (op.run self) family).2.get self = family.get self := by
    rcases run_cases self op family with ⟨-, hget⟩ | ⟨r, key, entry, -, he⟩
    · exact hget self
    · rw [he] at h
      cases h
  rcases run_puts self op family with hs | ⟨s, hs⟩
  · exact hs
  · rw [hs, Family.get_put_same] at hget
    rw [hs, hget, hput]

/-- A failing call brings the queries in its store up to date, and does nothing else. -/
theorem step_failed {self : Text} {op : Operation} {family : Family} {e : Failure}
    (h : (effect (step self op) family).1 = .error e) :
    (effect (step self op) family).2 = (family.refresh self).refresh self := by
  rw [step, Family.effect_upToDate] at h ⊢
  rw [run_failed (family.refresh_put_self self) h]

/-- After any calls on stores that start empty, a call that fails leaves its store and all others as they
were, and none of them has an empty comma list or an empty list of row filters. -/
theorem unchanged_failed_runAll {family : Family} (hempty : ∀ name, (family.get name).entries = [])
    (steps : List (Text × Operation)) {self : Text} {op : Operation} {e : Failure}
    (h : (effect (step self op) (runAll family steps)).1 = .error e) :
    let before := runAll family steps
    let after := (effect (step self op) before).2
    (∀ other, other ≠ self → after.get other = before.get other) ∧
      after.current self = before.current self ∧ after.All Store.Filled := by
  intro before after
  have hafter : after = (before.refresh self).refresh self := step_failed h
  refine ⟨fun other ho => ?_, ?_, ?_⟩
  · rw [hafter]
    exact (Family.get_put_other ho _ _).trans (Family.get_put_other ho _ _)
  · rw [hafter, Family.current_refresh, Family.current_refresh]
  · have hbefore : before.All Store.Filled :=
      all_runAll (fun st _ => filled_keptBy st.2) fun name m hm => by
        rw [hempty name] at hm
        cases hm
    exact (filled_keptBy op).step self hbefore

/-- A value that is refused, under a key that is new. -/
def refusedAppend : Operation := .append (.ofString "select") (.list [.float (.infinite true)])

/-- Writes of two stores before the refused one, a fold that fails on its combinator among them. -/
def earlierCalls : List (Text × Operation) :=
  [("a", .append (.ofString "sort") (.ofString "name:asc")),
    ("b", .set (.ofString "filters") (.int 1)),
    ("a", .fold (.ofString "$not") (.list [.store "b" []]))]

/-- The refused append leaves no entry under its key. -/
theorem unchanged_failed_refusedAppend :
    ∃ e, (effect (step "a" refusedAppend) (runAll ⟨[]⟩ earlierCalls)).1 = .error e ∧
      ((effect (step "a" refusedAppend) (runAll ⟨[]⟩ earlierCalls)).2.current "a").entries =
        [(.ofString "sort", .commaList [.ofString "name:asc"])] := by
  have hempty : ∀ name, ((⟨[]⟩ : Family).get name).entries = [] := fun _ => rfl
  have hfailed : (effect (step "a" refusedAppend) (runAll ⟨[]⟩ earlierCalls)).1 = .error _ := rfl
  obtain ⟨-, hsame, -⟩ := unchanged_failed_runAll hempty earlierCalls hfailed
  exact ⟨_, rfl, congrArg Store.entries hsame⟩

end Operation

end Store

end RowQuery
