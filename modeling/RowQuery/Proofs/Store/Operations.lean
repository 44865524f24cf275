import RowQuery.Proofs.Fallible
import RowQuery.Proofs.Store.Refresh
import RowQuery.Proofs.Store.Runs

/-!
# Operations on stores

The calls of stores with any values, on a family of stores. Main statement: a call leaves the stores
as they are, or it puts one entry under one key of its store. What a run keeps and what it changes
follows from the four entries that can be put.
-/

namespace RowQuery

open RowQuery.Action (effect Fails)

set_option autoImplicit false

/-- A property of the values in an entry, and one of its row filters. -/
def Entry.Every (p : Value → Prop) (q : RowFilter → Prop) : Entry → Prop
  | scalar v => p v
  | commaList vs => ∀ v ∈ vs, p v
  | rowFilters fs => ∀ f ∈ fs, q f

namespace Store

inductive Operation where
  | set (key v : Value)
  | append (key v : Value)
  | addRowFilter (f : Value)
  | fold (combinator sources : Value)

namespace Operation

/-- The effect of a call on its store, among a family of stores. A fold returns the group that it
made, if any. -/
def run (self : Text) : Operation → Action Family (Option RowFilter)
  | set key v => do
    Family.focus self (Store.set key v)
    pure none
  | append key v => do
    Family.focus self (Store.append key v)
    pure none
  | addRowFilter f => do
    Family.focus self (Store.addFilter f)
    pure none
  | fold combinator sources => Family.foldValues self combinator sources

/-- A step of a run: a call of the store under a name. -/
def step (self : Text) (op : Operation) : Action Family (Option RowFilter) :=
  Family.upToDate self (op.run self)

/-- The family after steps from a given one, whether they succeed or not. -/
def runAll (family : Family) (steps : List (Text × Operation)) : Family :=
  steps.foldl (fun family st => (effect (step st.1 st.2) family).2) family

/-- The key that a call wrote, from what it returned. -/
def written? (filtersKey : Text) : Operation → Except Failure (Option RowFilter) → Option Value
  | _, .error _ => none
  | set key _, .ok _ | append key _, .ok _ => some key
  | addRowFilter _, .ok _ => some (.text filtersKey)
  | fold .., .ok group? => group?.map fun _ => .text filtersKey

/-- What a call that writes returns, and the entry that it puts under a key. -/
inductive Writes (family : Family) (self : Text) :
    Operation → Option RowFilter → Value → Entry → Prop
  | scalar {key v : Value} (hscalar : isScalar v.normalize = true)
      (hfinite : v.normalize.isFinite = true) :
      Writes family self (set key v) none key (.scalar v.normalize)
  | commaList {key v : Value} {values : List Value} (hfinite : v.normalize.isFinite = true)
      (hold : (family.get self).get? key = none ∧ values = [] ∨
        (family.get self).get? key = some (.commaList values)) :
      Writes family self (append key v) none key (.commaList (values ++ [v.normalize]))
  | rowFilter {f : RowFilter} (hopen : (family.get self).Open) :
      Writes family self (addRowFilter (.filter f)) none (.text (family.get self).rowFilterKey)
        (.rowFilters ((family.get self).rowFilters ++ [f]))
  | group {combinator sources : Value} {c : Combinator} {joined operands : List RowFilter}
      (hopen : (family.get self).Open)
      (hjoined : sources.loop >>= family.sourceFilters self = .ok joined)
      (hoperands : operands = (family.get self).rowFilters ++ joined)
      (hne : operands ≠ []) :
      Writes family self (fold combinator sources) (some (.group c operands))
        (.text (family.get self).rowFilterKey) (.rowFilters [.group c operands])

/-- What a fold gathers from its sources stands in stores of the family. -/
theorem mem_sourceFilters {family : Family} {self : Text} {vs : List Value} {fs : List RowFilter}
    (h : family.sourceFilters self vs = .ok fs) {f : RowFilter} (hf : f ∈ fs) :
    ∃ name, f ∈ (family.get name).rowFilters := by
  induction vs generalizing fs with
  | nil =>
    cases h
    cases hf
  | cons v vs ih =>
    cases v with
    | store name keys =>
      obtain ⟨gs, hgs, rfl⟩ := map_eq_ok h
      split at hf
      · exact ih hgs hf
      · exact (List.mem_append.1 hf).elim (fun hf => ⟨name, hf⟩) (ih hgs)
    | query q =>
      obtain ⟨gs, hgs, rfl⟩ := map_eq_ok h
      exact (List.mem_append.1 hf).elim (fun hf => ⟨q.name, hf⟩) (ih hgs)
    | _ => cases h

/-- What a call brings into a store has the properties. -/
def Brings (p : Value → Prop) (q : RowFilter → Prop) : Operation → Prop
  | set _ v | append _ v => v.normalize.isFinite = true → p v.normalize
  | addRowFilter v => ∀ f, v = .filter f → q f
  | fold .. => True

/-- A call puts an entry of what it brings in and of what the stores of the family hold. -/
theorem Writes.every {p : Value → Prop} {q : RowFilter → Prop} {family : Family} {self : Text}
    {op : Operation} {r : Option RowFilter} {key : Value} {e : Entry}
    (h : Writes family self op r key e) (hop : op.Brings p q)
    (hgroup : ∀ c fs, fs ≠ [] → (∀ f ∈ fs, q f) → q (.group c fs))
    (hall : family.All fun s => ∀ m ∈ s.entries, m.2.Every p q) : e.Every p q := by
  have hentry : ∀ {name : Text} {k : Value} {old : Entry},
      (family.get name).get? k = some old → old.Every p q := fun hold => by
    obtain ⟨k, hk, -⟩ := mem_of_findEntry? hold
    exact hall _ _ hk
  have hfilters : ∀ name, ∀ f ∈ (family.get name).rowFilters, q f := fun name f hf => by
    obtain ⟨fs, hfs, hmem⟩ := mem_rowFilters hf
    exact hentry hfs f hmem
  cases h with
  | scalar _ hfinite => exact hop hfinite
  | commaList hfinite hold =>
    intro w hw
    rcases List.mem_append.1 hw with hw | hw
    · rcases hold with ⟨-, rfl⟩ | hold
      · cases hw
      · exact hentry hold w hw
    · rw [List.mem_singleton.1 hw]
      exact hop hfinite
  | @rowFilter f =>
    intro g hg
    rcases List.mem_append.1 hg with hg | hg
    · exact hfilters self g hg
    · rw [List.mem_singleton.1 hg]
      exact hop f rfl
  | @group _ sources c joined operands _ hjoined hoperands hne =>
    intro g hg
    rw [List.mem_singleton.1 hg]
    refine hgroup c operands hne fun f hf => ?_
    -- An operand is a row filter of the store itself or of one that the fold reads.
    rw [hoperands] at hf
    rcases List.mem_append.1 hf with hf | hf
    · exact hfilters self f hf
    · obtain ⟨vs, -, hvs⟩ := bind_eq_ok hjoined
      obtain ⟨name, hname⟩ := mem_sourceFilters hvs hf
      exact hfilters name f hname

/-- A call that writes nothing fails, or is a fold without operands. -/
def Idle (op : Operation) (result : Except Failure (Option RowFilter)) : Prop :=
  (∃ e, result = .error e) ∨ (∃ c vs, op = fold c vs) ∧ result = .ok none

theorem Idle.written? {op : Operation} {result : Except Failure (Option RowFilter)}
    (h : op.Idle result) (filtersKey : Text) : op.written? filtersKey result = none := by
  rcases h with ⟨e, rfl⟩ | ⟨⟨c, vs, rfl⟩, rfl⟩
  · rfl
  · rfl

theorem Writes.written? {family : Family} {self : Text} {op : Operation} {r : Option RowFilter}
    {key : Value} {e : Entry} (h : Writes family self op r key e) :
    op.written? (family.get self).rowFilterKey (.ok r) = some key := by
  cases h <;> rfl

/-! ## One call -/

theorem effect_focus_none (self : Text) (x : Action Store Unit) (family : Family) :
    effect (do Family.focus self x; pure none : Action Family (Option RowFilter)) family =
      ((effect x (family.get self)).1.map fun _ => none,
        family.put self (effect x (family.get self)).2) := by
  rw [Action.effect_bind, Family.effect_focus]
  cases (effect x (family.get self)).1 <;> rfl

theorem get_put_get (family : Family) (self name : Text) :
    (family.put self (family.get self)).get name = family.get name := by
  by_cases h : name = self
  · rw [h, Family.get_put_same]
  · exact Family.get_put_other h _ _

/-- A failing call of a store leaves all stores. -/
theorem idle_of_fails {self : Text} {x : Action Store Unit} {family : Family}
    (h : Fails x (family.get self)) :
    ∃ e, effect (do Family.focus self x; pure none : Action Family (Option RowFilter)) family =
      (.error e, family.put self (family.get self)) := by
  obtain ⟨e, he⟩ := h
  exact ⟨e, by rw [effect_focus_none, he]; rfl⟩

/-- A call writes nothing and leaves all stores, or it puts one entry in its own. -/
theorem run_cases (self : Text) (op : Operation) (family : Family) :
    (op.Idle (effect (op.run self) family).1 ∧
      ∀ name, (effect (op.run self) family).2.get name = family.get name) ∨
    ∃ r key e, Writes family self op r key e ∧
      effect (op.run self) family = (.ok r, family.put self ((family.get self).put key e)) := by
  have hidle : ∀ {x : Action Store Unit}, Fails x (family.get self) →
      op.Idle (effect (do Family.focus self x; pure none) family).1 ∧
        ∀ name, (effect (do Family.focus self x; pure none : Action Family (Option RowFilter))
          family).2.get name = family.get name := fun h => by
    obtain ⟨e, he⟩ := idle_of_fails h
    rw [he]
    exact ⟨.inl ⟨e, rfl⟩, get_put_get family self⟩
  cases op with
  | set key v =>
    rcases set_cases key v (family.get self) with hf | ⟨-, hs, hv, he⟩
    · exact .inl (hidle hf)
    · refine .inr ⟨none, key, _, .scalar hs hv, ?_⟩
      rw [run, effect_focus_none, he]
      rfl
  | append key v =>
    rcases append_cases key v (family.get self) with hf | ⟨-, hv, values, hold, he⟩
    · exact .inl (hidle hf)
    · refine .inr ⟨none, key, _, .commaList hv hold, ?_⟩
      rw [run, effect_focus_none, he]
      rfl
  | addRowFilter f =>
    rcases addFilter_cases f (family.get self) with hf | ⟨f, rfl, ho, he⟩
    · exact .inl (hidle hf)
    · refine .inr ⟨none, _, _, .rowFilter ho, ?_⟩
      rw [run, effect_focus_none, he]
      rfl
  | fold combinator sources =>
    rw [run]
    rcases foldValues_cases self combinator sources family with ⟨e, he⟩ | ⟨c, joined, hjoined, he⟩
    · rw [he]
      exact .inl ⟨.inl ⟨e, rfl⟩, fun _ => rfl⟩
    · rw [he, Family.effect_focus]
      rcases fold_cases c joined (family.get self) with
        ⟨-, hf⟩ | ⟨hne, ⟨-, e, hf⟩ | ⟨ho, hf⟩⟩ <;> rw [hf]
      · exact .inl ⟨.inr ⟨⟨_, _, rfl⟩, rfl⟩, get_put_get family self⟩
      · exact .inl ⟨.inl ⟨e, rfl⟩, get_put_get family self⟩
      · exact .inr ⟨_, _, _, .group ho hjoined rfl hne, rfl⟩

/-! ## Steps -/

/-- What a step does: the other stores stay, and the store of the call is brought up to date before
and after the entry is put, if there is one. -/
theorem step_cases (self : Text) (op : Operation) (family : Family) :
    (∀ other, other ≠ self →
      (effect (step self op) family).2.get other = family.get other) ∧
    ∃ f : Text → QueryHandle, (∀ n, (f n).name = n) ∧
      (op.Idle (effect (step self op) family).1 ∧
          (effect (step self op) family).2.get self = (family.current self).withQueries f ∨
        ∃ r key e, Writes (family.refresh self) self op r key e ∧
          (effect (step self op) family).1 = .ok r ∧
          (effect (step self op) family).2.get self =
            ((family.current self).put key e).withQueries f) := by
  have hcurrent := family.get_refresh_self self
  have hother : ∀ other, other ≠ self → (family.refresh self).get other = family.get other :=
    fun other ho => Family.get_put_other ho _ _
  have hcases := run_cases self op (family.refresh self)
  rw [step, Family.effect_upToDate]
  rcases hrun : effect (op.run self) (family.refresh self) with ⟨result, reached⟩
  rw [hrun] at hcases
  have hself : (reached.refresh self).get self = (reached.get self).withQueries reached.handle :=
    reached.get_refresh_self self
  refine ⟨fun other ho => ?_, reached.handle, reached.name_handle, ?_⟩
  · have hkept : reached.get other = (family.refresh self).get other := by
      rcases hcases with ⟨-, hget⟩ | ⟨_, _, _, -, he⟩
      · exact hget other
      · cases he
        exact Family.get_put_other ho _ _
    exact (Family.get_put_other ho _ _).trans (hkept.trans (hother other ho))
  · rcases hcases with ⟨hidle, hget⟩ | ⟨r, key, e, hwrites, he⟩
    · exact .inl ⟨hidle, by rw [hself, hget, hcurrent]⟩
    · cases he
      exact .inr ⟨r, key, e, hwrites, rfl, by rw [hself, Family.get_put_same, hcurrent]⟩

variable {p : Store → Prop} {family : Family} {steps : List (Text × Operation)}

/-- A property of stores that updates of queries and the entries of a call keep. -/
structure KeptBy (p : Store → Prop) (op : Operation) : Prop where
  update : ∀ (s : Store) (f : Text → QueryHandle), (∀ n, (f n).name = n) → p s →
    p (s.withQueries f)
  write : ∀ (family : Family) (self : Text), family.All p → ∀ r key e,
    Writes family self op r key e → p ((family.get self).put key e)

/-- A property that a call keeps holds of all stores after the call. -/
theorem KeptBy.step {op : Operation} (hkept : KeptBy p op) (self : Text) (h : family.All p) :
    (effect (step self op) family).2.All p := by
  have hcurrent : p (family.current self) := hkept.update _ _ family.name_handle (h self)
  have hrefresh : (family.refresh self).All p := h.put hcurrent
  obtain ⟨hothers, f, hf, hself⟩ := step_cases self op family
  intro name
  by_cases hn : name = self
  · rw [hn]
    rcases hself with ⟨-, hs⟩ | ⟨r, key, e, hwrites, -, hs⟩ <;> rw [hs]
    · exact hkept.update _ _ hf hcurrent
    · have hput := hkept.write _ self hrefresh r key e hwrites
      rw [Family.get_refresh_self] at hput
      exact hkept.update _ _ hf hput
  · rw [hothers name hn]
    exact h name

/-- What every call of a run keeps holds after the run. -/
theorem all_runAll (hkept : ∀ st ∈ steps, KeptBy p st.2) (h : family.All p) :
    (runAll family steps).All p := by
  induction steps generalizing family with
  | nil => exact h
  | cons st steps ih =>
    have hstep := (hkept st List.mem_cons_self).step st.1 h
    exact ih (fun st' hst => hkept st' (List.mem_cons_of_mem _ hst)) hstep

end Operation

end Store

end RowQuery
