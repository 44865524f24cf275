import RowQuery.Proofs.Query.Leaves

/-!
# Conservation of leaves

A successful call appends the leaves that it adds and the leaves of the other queries that it reads;
a failing call appends none, and no call touches a query that is not its receiver. So no run of
calls loses, repeats or reorders a predicate, however adds and folds are interleaved.
-/

namespace RowQuery

open RowQuery.Action (effect)
open RowFilter (leavesOf)
open Store (Appends)

set_option autoImplicit false

namespace Family

/-- Every member of the family is a query. -/
abbrev AreQueries (family : Family) : Prop := family.All Store.IsQuery

theorem AreQueries.refresh {family : Family} (h : family.AreQueries) (name : Text) :
    (family.refresh name).AreQueries :=
  All.put h (h name)

/-- The predicates that a fold gathers are those of the other queries, in order. -/
theorem leaves_joined (family : Family) (self : Text) (names : List Text) :
    leavesOf (family.joined self names) =
      (names.filter (· ≠ self)).flatMap fun name => (family.get name).leaves :=
  RowFilter.leavesOf_flatMap _ _

/-- Bringing queries up to date leaves the row filters alone. -/
theorem rowFilters_refresh (family : Family) (self name : Text) :
    ((family.refresh self).get name).rowFilters = (family.get name).rowFilters := by
  by_cases hn : name = self
  · rw [hn, Family.refresh, get_put_same, Store.rowFilters_withQueries]
  · rw [Family.refresh, get_put_other hn]

theorem leaves_refresh (family : Family) (self name : Text) :
    ((family.refresh self).get name).leaves = (family.get name).leaves :=
  congrArg leavesOf (family.rowFilters_refresh self name)

end Family

namespace Query

/-- What a call of a query does to the leaves of a family of queries. -/
structure Conserves (receiver : Text) (c : Call) (family : Family)
    (after : Except Failure Unit × Family) : Prop where
  others : ∀ other, other ≠ receiver → after.2.get other = family.get other
  failed : ∀ e, after.1 = .error e → (after.2.get receiver).leaves = (family.get receiver).leaves
  succeeded : after.1 = .ok () → ∃ filters, c.additions? = some filters ∧
    (after.2.get receiver).leaves = (family.get receiver).leaves ++ leavesOf filters ++
      (c.sources.filter (· ≠ receiver)).flatMap fun name => (family.get name).leaves
  folded : after.1 = .ok () → ∀ k queries, c = .fold k queries →
    (after.2.get receiver).leaves ≠ [] →
      ∃ operands, (after.2.get receiver).rowFilters = [.group k operands]

theorem Conserves.failure {receiver : Text} {c : Call} {family after : Family} {e : Failure}
    (ho : ∀ other, other ≠ receiver → after.get other = family.get other)
    (hl : (after.get receiver).leaves = (family.get receiver).leaves) :
    Conserves receiver c family (.error e, after) where
  others := ho
  failed := fun _ _ => hl
  succeeded := fun h => by cases h
  folded := fun h => by cases h

theorem Conserves.success {receiver : Text} {c : Call} {family after : Family}
    (ho : ∀ other, other ≠ receiver → after.get other = family.get other)
    (hl : ∃ filters, c.additions? = some filters ∧
      (after.get receiver).leaves = (family.get receiver).leaves ++ leavesOf filters ++
        (c.sources.filter (· ≠ receiver)).flatMap fun name => (family.get name).leaves)
    (hg : ∀ k queries, c = .fold k queries → (after.get receiver).leaves ≠ [] →
      ∃ operands, (after.get receiver).rowFilters = [.group k operands]) :
    Conserves receiver c family (.ok (), after) where
  others := ho
  failed := fun _ h => by cases h
  succeeded := fun _ => hl
  folded := fun _ => hg

/-! ## One call -/

/-- Arguments of a fold are refused, or all of them are queries. -/
theorem sourceNames_cases (vs : List Value) :
    (∃ e, sourceNames vs = .error e) ∨ sourceNames vs = .ok (vs.filterMap fun
      | .query q => some q.name
      | _ => none) := by
  induction vs with
  | nil => exact .inr rfl
  | cons v vs ih =>
    cases v with
    | query q =>
      rcases ih with ⟨e, he⟩ | he
      · exact .inl ⟨e, by rw [sourceNames, he]; rfl⟩
      · exact .inr (by rw [sourceNames, he]; rfl)
    | _ => exact .inl ⟨_, rfl⟩

theorem effect_run_fold {self : Text} {k : Combinator} {queries : List Value} {names : List Text}
    (h : sourceNames (flatten queries) = .ok names) (family : Family) :
    effect ((Call.fold k queries).run self) family =
      let o := effect (Store.fold k (family.joined self names)) (family.get self)
      (o.1.map fun _ => (), family.put self o.2) := by
  simp only [Call.run, h, Family.fold, Action.effect_bind, Action.effect_lift, Action.andThen_ok,
    Action.effect_read, Family.effect_focus]
  rcases effect (Store.fold k (family.joined self names)) (family.get self) with ⟨_ | _, _⟩ <;> rfl

theorem conserves_focus {c : Call} {x : Action Store Unit} (hs : c.sources = [])
    (hc : ∀ k queries, c ≠ .fold k queries) (hx : Appends x c.additions?) {family : Family}
    (hq : family.AreQueries) (self : Text) :
    (effect (Family.focus self x) family).2.AreQueries ∧
      Conserves self c family (effect (Family.focus self x) family) := by
  rw [Family.effect_focus]
  obtain ⟨hq', hcases⟩ := hx (family.get self) (hq self)
  refine ⟨hq.put hq', ?_⟩
  rcases hcases with ⟨⟨e, he⟩, hr⟩ | ⟨hok, filters, hf, hr⟩
  · rw [he]
    refine .failure (fun _ ho => Family.get_put_other ho _ _) ?_
    rw [Family.get_put_same]
    exact congrArg leavesOf hr
  · rw [hok]
    refine .success (fun _ ho => Family.get_put_other ho _ _) ⟨filters, hf, ?_⟩
      fun k queries h => absurd h (hc k queries)
    rw [Family.get_put_same, hs, List.filter_nil, List.flatMap_nil, List.append_nil]
    exact (congrArg leavesOf hr).trans (RowFilter.leavesOf_append _ _)

theorem conserves_fold (self : Text) (k : Combinator) (queries : List Value) {family : Family}
    (hq : family.AreQueries) :
    (effect ((Call.fold k queries).run self) family).2.AreQueries ∧
      Conserves self (.fold k queries) family (effect ((Call.fold k queries).run self) family) := by
  rcases sourceNames_cases (flatten queries) with ⟨e, he⟩ | hn
  · have hrun : effect ((Call.fold k queries).run self) family = (.error e, family) := by
      simp only [Call.run, he, Action.effect_bind, Action.effect_lift, Action.andThen_error]
    rw [hrun]
    exact ⟨hq, .failure (fun _ _ => rfl) rfl⟩
  · have hn : sourceNames (flatten queries) = .ok (Call.fold k queries).sources := hn
    rw [effect_run_fold hn]
    have hcases :=
      Store.fold_cases k (family.joined self (Call.fold k queries).sources) (family.get self)
    rcases hcases with ⟨hnil, he⟩ | ⟨-, ⟨-, e, he⟩ | ⟨-, he⟩⟩ <;> rw [he]
    · -- Without operands neither the query nor the queries that it reads have leaves.
      obtain ⟨hself, hjoined⟩ := List.append_eq_nil_iff.1 hnil
      have hleaves : (family.get self).leaves = [] := by rw [Store.leaves, hself, leavesOf]
      refine ⟨hq.put (hq self), .success (fun _ ho => Family.get_put_other ho _ _) ⟨[], rfl, ?_⟩ ?_⟩
      · rw [← Family.leaves_joined, hjoined, Family.get_put_same, hleaves]
        rfl
      · intro _ _ _ hne
        rw [Family.get_put_same] at hne
        exact absurd hleaves hne
    · refine ⟨hq.put (hq self), .failure (fun _ ho => Family.get_put_other ho _ _) ?_⟩
      rw [Family.get_put_same]
    · have hgroup := Store.rowFilters_putRowFilters (family.get self) [.group k
        ((family.get self).rowFilters ++ family.joined self (Call.fold k queries).sources)]
      refine ⟨hq.put (hq self), .success (fun _ ho => Family.get_put_other ho _ _) ⟨[], rfl, ?_⟩ ?_⟩
      · rw [Family.get_put_same, Store.leaves, hgroup, RowFilter.leavesOf_singleton,
          RowFilter.leaves, RowFilter.leavesOf_append, Family.leaves_joined, leavesOf,
          List.append_nil]
        rfl
      · rintro _ _ ⟨⟩ -
        rw [Family.get_put_same]
        exact ⟨_, hgroup⟩

/-- One call of a query conserves the leaves of a family. -/
theorem conserves_run (self : Text) (c : Call) {family : Family} (hq : family.AreQueries) :
    (effect (c.run self) family).2.AreQueries ∧
      Conserves self c family (effect (c.run self) family) := by
  by_cases hc : ∃ k queries, c = .fold k queries
  · obtain ⟨k, queries, rfl⟩ := hc
    exact conserves_fold self k queries hq
  · rcases c.run_eq_focus with hfold | ⟨hs, x, hx, hrun⟩
    · exact absurd hfold hc
    · rw [hrun]
      exact conserves_focus hs (fun k queries h => hc ⟨k, queries, h⟩) hx hq self

/-! ## Runs -/

/-- One step conserves the leaves of a family, since bringing queries up to date touches no leaf. -/
theorem conserves_step (self : Text) (c : Call) {family : Family} (hq : family.AreQueries) :
    (effect (step self c) family).2.AreQueries ∧
      Conserves self c family (effect (step self c) family) := by
  obtain ⟨hq', hc⟩ := conserves_run self c (Family.AreQueries.refresh hq self)
  rw [step, Family.effect_upToDate]
  refine ⟨Family.AreQueries.refresh hq' self, fun other ho => ?_, fun e he => ?_, fun hok => ?_, ?_⟩
  · exact (Family.get_put_other ho _ _).trans
      ((hc.others other ho).trans (Family.get_put_other ho _ _))
  · rw [Family.leaves_refresh, hc.failed e he, Family.leaves_refresh]
  · obtain ⟨filters, hf, hl⟩ := hc.succeeded hok
    refine ⟨filters, hf, ?_⟩
    rw [Family.leaves_refresh, hl]
    simp only [Family.leaves_refresh]
  · intro hok k queries h hne
    rw [Family.leaves_refresh] at hne
    obtain ⟨operands, hr⟩ := hc.folded hok k queries h hne
    exact ⟨operands, (Family.rowFilters_refresh _ _ _).trans hr⟩

theorem areQueries_fresh : Family.fresh.AreQueries := fun name =>
  congrArg Store.rowFilterKey (Family.get_fresh name)

/-- Queries stay queries over a whole run. -/
theorem areQueries_run {family : Family} (h : family.AreQueries) (steps : List (Text × Call)) :
    (run family steps).AreQueries := by
  induction steps generalizing family with
  | nil => exact h
  | cons st steps ih => exact ih (conserves_step st.1 st.2 h).1

/-- The row filters that the successful calls of one query add, in call order. -/
def filtersAdded (self : Text) (family : Family) : List Call → List RowFilter
  | [] => []
  | c :: calls =>
    let after := effect (step self c) family
    (match after.1 with
      | .ok _ => c.additions?.getD []
      | .error _ => []) ++ filtersAdded self after.2 calls

/-- While the other queries have no leaves, those of the query are the ones of its filters. -/
theorem leaves_run_of_alone (self : Text) (calls : List Call) {family : Family}
    (hq : family.AreQueries) (ho : ∀ other, other ≠ self → (family.get other).leaves = []) :
    ((run family (calls.map fun c => (self, c))).get self).leaves =
      (family.get self).leaves ++ leavesOf (filtersAdded self family calls) := by
  induction calls generalizing family with
  | nil => exact (List.append_nil _).symm
  | cons c calls ih =>
    obtain ⟨hq', hc⟩ := conserves_step self c hq
    have ho' : ∀ other, other ≠ self → ((effect (step self c) family).2.get other).leaves = [] :=
      fun other h => by rw [hc.others other h, ho other h]
    have hrun : run family ((c :: calls).map fun c => (self, c)) =
      run (effect (step self c) family).2 (calls.map fun c => (self, c)) := rfl
    rw [hrun, ih hq' ho', filtersAdded, RowFilter.leavesOf_append, ← List.append_assoc]
    congr 1
    cases hresult : (effect (step self c) family).1 with
    | error e => rw [hc.failed e hresult]; exact (List.append_nil _).symm
    | ok =>
      obtain ⟨filters, hf, hl⟩ := hc.succeeded hresult
      have hnone :
          ((c.sources.filter (· ≠ self)).flatMap fun name => (family.get name).leaves) = [] :=
        List.flatMap_eq_nil_iff.2 fun name hname =>
          ho name (of_decide_eq_true (List.mem_filter.1 hname).2)
      rw [hl, hnone, List.append_nil, hf]
      rfl

/-- After any run every call conserves the leaves; in a run on one query its leaves are those of the
filters that were added, in call order. -/
theorem leaves_run (steps : List (Text × Call)) :
    (∀ self c, Conserves self c (run Family.fresh steps)
      (effect (step self c) (run Family.fresh steps))) ∧
    ∀ (self : Text) (calls : List Call),
      ((run Family.fresh (calls.map fun c => (self, c))).get self).leaves =
        leavesOf (filtersAdded self Family.fresh calls) := by
  refine ⟨fun self c => (conserves_step self c (areQueries_run areQueries_fresh steps)).2, ?_⟩
  intro self calls
  exact leaves_run_of_alone self calls areQueries_fresh fun other _ =>
    congrArg Store.leaves (Family.get_fresh other)

end Query

end RowQuery
