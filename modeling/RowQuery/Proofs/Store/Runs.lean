import RowQuery.Proofs.Store.Families

/-!
# Runs of stores

The calls of stores with texts as keys, on a family of stores that all start empty. Main statement:
in every store that a run reaches the keys are distinct texts, and row filters stand under their own
key alone.
-/

namespace RowQuery.Store

open RowQuery.Action (effect Fails)
open Value (sameKey)

set_option autoImplicit false

/-! ## Entries under distinct texts -/

/-- The keys are distinct texts, and only the key of the row filters has row filters. -/
structure Keyed (s : Store) : Prop where
  texts : ∀ k ∈ s.keys, ∃ t, k = .text t
  distinct : s.keys.Nodup
  filters : ∀ e ∈ s.entries, e.2.kind = .rowFilters → e.1 = .text s.rowFilterKey

theorem keyed_of_empty {s : Store} (h : s.entries = []) : s.Keyed := by
  refine ⟨?_, ?_, ?_⟩
  · simp [keys, h]
  · simp [keys, h]
  · simp [h]

theorem mem_insertEntry_text {es : List (Value × Entry)} {k : Text} {e : Entry} {m : Value × Entry}
    (htexts : ∀ l ∈ es.map Prod.fst, ∃ t, l = .text t) (h : m ∈ insertEntry es (.text k) e) :
    m = (.text k, e) ∨ m ∈ es := by
  obtain ⟨l, old⟩ := m
  rcases mem_insertEntry h with hm | ⟨rfl, rfl | ⟨hl, hsame⟩⟩
  · exact .inr hm
  · exact .inl rfl
  · obtain ⟨t, rfl⟩ := htexts l hl
    cases Value.sameKey_text_iff.1 hsame
    exact .inl rfl

/-- A key that is written keeps its place, or goes to the end. -/
theorem keys_insertEntry (es : List (Value × Entry)) (k : Text) (e : Entry) :
    (insertEntry es (.text k) e).map Prod.fst = es.map Prod.fst ∨
      .text k ∉ es.map Prod.fst ∧
        (insertEntry es (.text k) e).map Prod.fst = es.map Prod.fst ++ [.text k] := by
  rw [map_fst_insertEntry, addKey]
  split
  · exact .inl rfl
  · next hany =>
    refine .inr ⟨fun hmem => hany ?_, rfl⟩
    exact List.any_eq_true.2 ⟨_, hmem, Value.sameKey_text_iff.2 rfl⟩

/-- The keys stay distinct texts when an entry is put under a text. -/
theorem Keyed.put {s : Store} (h : s.Keyed) {k : Text} {e : Entry}
    (he : e.kind = .rowFilters → k = s.rowFilterKey) : (s.put (.text k) e).Keyed := by
  refine ⟨?_, ?_, ?_⟩
  · intro l hl
    change l ∈ (insertEntry s.entries (.text k) e).map Prod.fst at hl
    rcases keys_insertEntry s.entries k e with hkeys | ⟨-, hkeys⟩ <;> rw [hkeys] at hl
    · exact h.texts l hl
    · rcases List.mem_append.1 hl with hl | hl
      · exact h.texts l hl
      · exact ⟨k, List.mem_singleton.1 hl⟩
  · change ((insertEntry s.entries (.text k) e).map Prod.fst).Nodup
    rcases keys_insertEntry s.entries k e with hkeys | ⟨hnew, hkeys⟩ <;> rw [hkeys]
    · exact h.distinct
    · refine List.nodup_append.2
        ⟨h.distinct, List.pairwise_singleton _ _, fun l hl m hm he => hnew ?_⟩
      rwa [← List.mem_singleton.1 hm, ← he]
  · intro m hm hkind
    rcases mem_insertEntry_text h.texts hm with rfl | hm
    · exact congrArg Value.text (he hkind)
    · exact h.filters m hm hkind

theorem Keyed.withQueries {s : Store} (h : s.Keyed) (f : Text → QueryHandle) :
    (s.withQueries f).Keyed := by
  have htext : ∀ k ∈ s.keys, k.withQueries f = k := fun k hk => by
    obtain ⟨t, rfl⟩ := h.texts k hk
    rfl
  have hkeys : (s.withQueries f).keys = s.keys := by
    have hmap : (s.withQueries f).keys = s.keys.map (Value.withQueries f) := by
      simp [keys, Store.withQueries]
    rw [hmap]
    exact (List.map_congr_left htext).trans (List.map_id _)
  refine ⟨hkeys ▸ h.texts, hkeys ▸ h.distinct, ?_⟩
  intro e he hkind
  obtain ⟨m, hm, rfl⟩ := List.mem_map.1 he
  have hold : m.2.kind = .rowFilters := by
    rw [← hkind]
    cases m.2 <;> rfl
  exact (htext m.1 (List.mem_map_of_mem hm)).trans (h.filters m hm hold)

theorem Keyed.putRowFilters {s : Store} (h : s.Keyed) (filters : List RowFilter) :
    (s.putRowFilters filters).Keyed :=
  h.put fun _ => rfl

/-! ## Calls -/

/-- A call of a store with a text as its key. -/
inductive Call where
  | set (key : Text) (v : Value)
  | append (key : Text) (v : Value)
  | addRowFilter (f : Value)
  | fold (combinator sources : Value)

/-- The effect of a call on its store, among a family of stores. -/
def Call.run (self : Text) : Call → Action Family Unit
  | set key v => Family.focus self (Store.set (.text key) v)
  | append key v => Family.focus self (Store.append (.text key) v)
  | addRowFilter f => Family.focus self (Store.addFilter f)
  | fold combinator sources => do
    let _ ← Family.foldValues self combinator sources
    pure ()

def step (self : Text) (c : Call) : Action Family Unit := Family.upToDate self (c.run self)

def run (family : Family) (steps : List (Text × Call)) : Family :=
  steps.foldl (fun family st => (effect (step st.1 st.2) family).2) family

theorem keyed_set {s : Store} (h : s.Keyed) (key : Text) (v : Value) :
    (effect (Store.set (.text key) v) s).2.Keyed := by
  rcases set_cases (.text key) v s with ⟨e, he⟩ | ⟨-, -, -, he⟩ <;> rw [he]
  · exact h
  · exact h.put nofun

theorem keyed_append {s : Store} (h : s.Keyed) (key : Text) (v : Value) :
    (effect (Store.append (.text key) v) s).2.Keyed := by
  rcases append_cases (.text key) v s with ⟨e, he⟩ | ⟨-, -, values, -, he⟩ <;> rw [he]
  · exact h
  · exact h.put nofun

theorem keyed_addFilter {s : Store} (h : s.Keyed) (f : Value) :
    (effect (Store.addFilter f) s).2.Keyed := by
  rcases addFilter_cases f s with ⟨e, he⟩ | ⟨f, -, -, he⟩ <;> rw [he]
  · exact h
  · exact h.putRowFilters _

theorem keyed_fold {s : Store} (h : s.Keyed) (c : Combinator) (joined : List RowFilter) :
    (effect (Store.fold c joined) s).2.Keyed := by
  rcases fold_cases c joined s with ⟨-, he⟩ | ⟨-, ⟨-, e, he⟩ | ⟨-, he⟩⟩ <;> rw [he]
  · exact h
  · exact h
  · exact h.putRowFilters _

theorem ofValue_cases {σ : Type} (v : Value) (s : σ) :
    Fails (Combinator.ofValue v) s ∨ ∃ c, effect (Combinator.ofValue v) s = (.ok c, s) := by
  unfold Combinator.ofValue
  dsimp only
  split
  · exact .inr ⟨_, rfl⟩
  · left
    apply (Action.keeps_inspected _).fails_bind
    intro shown
    exact Action.fails_fail _ s

theorem effect_ofValue_some {σ : Type} {v : Value} {c : Combinator}
    (h : v.normalize.text?.bind Combinator.ofWire? = some c) (s : σ) :
    effect (Combinator.ofValue v : Action σ Combinator) s = (.ok c, s) := by
  simp only [Combinator.ofValue, h, Action.effect_pure]

/-- A fold with a value that names no combinator shows the value, and does nothing else. -/
theorem effect_foldValues_none {combinator : Value}
    (h : combinator.normalize.text?.bind Combinator.ofWire? = none) (self : Text) (sources : Value)
    (family : Family) : effect (Family.foldValues self combinator sources) family =
      (combinator.normalize.inspected >>= fun shown => .error (.defect (.badCombinator shown)),
        family) := by
  simp only [Family.foldValues, Combinator.ofValue, h, Action.effect_bind, Action.effect_inspected]
  cases combinator.normalize.inspected <;> rfl

/-- A fold of any values fails before it looks at its store, or it is a fold of that store. -/
theorem foldValues_cases (self : Text) (combinator sources : Value) (family : Family) :
    Fails (Family.foldValues self combinator sources) family ∨
      ∃ c joined, sources.loop >>= family.sourceFilters self = .ok joined ∧
      effect (Family.foldValues self combinator sources) family =
        effect (Family.focus self (Store.fold c joined)) family := by
  unfold Family.foldValues
  rcases ofValue_cases combinator family with hfail | ⟨c, hc⟩
  · exact .inl (hfail.bind _)
  · cases hjoined : sources.loop >>= family.sourceFilters self with
    | error e => exact .inl ⟨e, by simp [hc, hjoined]⟩
    | ok joined => exact .inr ⟨c, joined, rfl, by simp [hc, hjoined]⟩

/-- One call keeps the keys of all stores of a family in order. -/
theorem keyed_run_call (self : Text) (c : Call) {family : Family} (h : family.All Keyed) :
    (effect (c.run self) family).2.All Keyed := by
  cases c with
  | set key v => exact h.put (keyed_set (h self) key v)
  | append key v => exact h.put (keyed_append (h self) key v)
  | addRowFilter f => exact h.put (keyed_addFilter (h self) f)
  | fold combinator sources =>
    have hstate : (effect (Call.run self (.fold combinator sources)) family).2 =
        (effect (Family.foldValues self combinator sources) family).2 := by
      simp only [Call.run, Action.effect_bind]
      rcases effect (Family.foldValues self combinator sources) family with ⟨_ | _, _⟩ <;> rfl
    rw [hstate]
    rcases foldValues_cases self combinator sources family with ⟨e, he⟩ | ⟨c, joined, -, he⟩ <;>
      rw [he]
    · exact h
    · exact h.put (keyed_fold (h self) c _)

/-- A call keeps the keys of all stores distinct texts. -/
theorem keyed_step (self : Text) (c : Call) {family : Family} (h : family.All Keyed) :
    (effect (step self c) family).2.All Keyed := by
  have hbefore : (family.refresh self).All Keyed := h.put ((h self).withQueries _)
  have hafter := keyed_run_call self c hbefore
  exact hafter.put ((hafter self).withQueries _)

/-- Whatever is called, in whatever order, the keys stay distinct texts. -/
theorem keyed_run {family : Family} (h : family.All Keyed) (steps : List (Text × Call)) :
    (run family steps).All Keyed := by
  induction steps generalizing family with
  | nil => exact h
  | cons st steps ih => exact ih (keyed_step st.1 st.2 h)

end RowQuery.Store
