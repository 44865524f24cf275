import RowQuery.Proofs.Store.Refresh

/-!
# Equal up to the texts of queries

A query inside a value shows the text that it has at the moment, so the same value looks different
after a change of the query. Values, entries and stores are the same when bringing the queries in them
up to date makes them equal. What a store checks of a value, where it finds an entry and what it holds
after a write are the same for values, entries and stores that are. Main statement: of two writes under
different keys that are there already the order does not matter.
-/

namespace RowQuery

set_option autoImplicit false

/-! ## Equal up to the texts of queries -/

/-- The same value, once the queries in it are brought up to date. -/
def Value.Same (v w : Value) : Prop :=
  ∀ f : Text → QueryHandle, (∀ n, (f n).name = n) → v.withQueries f = w.withQueries f

/-- The same entry or none, once the queries in it are brought up to date. -/
def Entry.Same (e e' : Option Entry) : Prop :=
  ∀ f : Text → QueryHandle, (∀ n, (f n).name = n) →
    e.map (Entry.withQueries f) = e'.map (Entry.withQueries f)

/-- The same store, once the queries in it are brought up to date. -/
def Store.Same (s t : Store) : Prop :=
  ∀ f : Text → QueryHandle, (∀ n, (f n).name = n) → s.withQueries f = t.withQueries f

/-- Queries without parameters. -/
def blankQueries (name : Text) : QueryHandle := ⟨name, .ok [], []⟩

theorem name_blankQueries (name : Text) : (blankQueries name).name = name := rfl

namespace Value

variable {f g : Text → QueryHandle} {v w : Value}

theorem same_withQueries (hf : ∀ n, (f n).name = n) (hg : ∀ n, (g n).name = n) (v : Value) :
    (v.withQueries f).Same (v.withQueries g) := by
  intro h _
  rw [withQueries_withQueries hf, withQueries_withQueries hg]

theorem normalize_withQueries (v : Value) :
    v.normalize.withQueries f = (v.withQueries f).normalize := by
  cases v <;> rfl

theorem typeName_withQueries (v : Value) : (v.withQueries f).typeName = v.typeName := by
  cases v <;> rfl

theorem withQueries_eq_filter {r : RowFilter} : v.withQueries f = .filter r ↔ v = .filter r := by
  cases v <;> simp [withQueries]

theorem text?_withQueries (v : Value) :
    (v.withQueries f).normalize.text? = v.normalize.text? := by
  cases v <;> rfl

namespace Same

theorem normalize (h : v.Same w) : v.normalize.Same w.normalize := by
  intro f hf
  rw [normalize_withQueries, normalize_withQueries, h f hf]

theorem isFinite (h : v.Same w) : v.isFinite = w.isFinite := by
  rw [← isFinite_withQueries (f := blankQueries), h _ name_blankQueries, isFinite_withQueries]

theorem isScalar (h : v.Same w) : Store.isScalar v = Store.isScalar w := by
  rw [← isScalar_withQueries (f := blankQueries), h _ name_blankQueries, isScalar_withQueries]

theorem typeName (h : v.Same w) : v.typeName = w.typeName := by
  rw [← typeName_withQueries (f := blankQueries), h _ name_blankQueries, typeName_withQueries]

theorem eq_filter {r : RowFilter} (h : v.Same w) : v = .filter r ↔ w = .filter r := by
  rw [← withQueries_eq_filter (f := blankQueries), h _ name_blankQueries, withQueries_eq_filter]

end Same

end Value

namespace Entry.Same

variable {o o' : Option Entry}

theorem refl (o : Option Entry) : Entry.Same o o := fun _ _ => rfl

theorem symm (h : Entry.Same o o') : Entry.Same o' o := fun f hf => (h f hf).symm

theorem trans {o'' : Option Entry} (h : Entry.Same o o') (h' : Entry.Same o' o'') :
    Entry.Same o o'' := fun f hf => (h f hf).trans (h' f hf)

/-- Entries that are the same are of one kind, and row filters, which keep the queries in them, are
equal. -/
theorem cases (h : Entry.Same o o') :
    o = none ∧ o' = none ∨ (∃ v w, o = some (.scalar v) ∧ o' = some (.scalar w)) ∨
      (∃ vs ws, o = some (.commaList vs) ∧ o' = some (.commaList ws)) ∨
      ∃ fs, o = some (.rowFilters fs) ∧ o' = some (.rowFilters fs) := by
  have hblank := h _ name_blankQueries
  cases o with
  | none =>
    cases o' with
    | none => exact .inl ⟨rfl, rfl⟩
    | some e' => cases hblank
  | some e =>
    cases o' with
    | none => cases hblank
    | some e' =>
      have hupdated := Option.some.inj hblank
      cases e with
      | scalar v =>
        cases e' with
        | scalar w => exact .inr (.inl ⟨v, w, rfl, rfl⟩)
        | commaList | rowFilters => cases hupdated
      | commaList vs =>
        cases e' with
        | commaList ws => exact .inr (.inr (.inl ⟨vs, ws, rfl, rfl⟩))
        | scalar | rowFilters => cases hupdated
      | rowFilters fs =>
        cases e' with
        | rowFilters gs =>
          cases hupdated
          exact .inr (.inr (.inr ⟨fs, rfl, rfl⟩))
        | scalar | commaList => cases hupdated

theorem scalar {v w : Value} (h : v.Same w) : Entry.Same (some (.scalar v)) (some (.scalar w)) := by
  intro f hf
  exact congrArg (fun u => some (Entry.scalar u)) (h f hf)

/-- Comma lists that are the same stay so when the same value is added to both. -/
theorem append {vs ws : List Value} {v w : Value}
    (h : Entry.Same (some (.commaList vs)) (some (.commaList ws))) (hv : v.Same w) :
    Entry.Same (some (.commaList (vs ++ [v]))) (some (.commaList (ws ++ [w]))) := by
  intro f hf
  have hlists : Value.allWithQueries f vs = Value.allWithQueries f ws :=
    Entry.commaList.inj (Option.some.inj (h f hf))
  rw [Value.allWithQueries_eq_map, Value.allWithQueries_eq_map] at hlists
  show some (Entry.commaList _) = some (Entry.commaList _)
  rw [Value.allWithQueries_eq_map, Value.allWithQueries_eq_map, List.map_append, List.map_append,
    hlists, List.map_singleton, List.map_singleton, hv f hf]

end Entry.Same

namespace Store

variable {f g : Text → QueryHandle} {s t : Store}

/-- Looking up an entry and bringing it up to date commute. -/
theorem get?_withQueries_of_names (hf : ∀ n, (f n).name = n) (s : Store) (key : Value) :
    (s.withQueries f).get? key = (s.get? key).map (Entry.withQueries f) := by
  obtain ⟨filtersKey, es⟩ := s
  change findEntry? (es.map fun e => (e.1.withQueries f, e.2.withQueries f)) key =
    (Option.map (Entry.withQueries f) <| findEntry? es key)
  induction es with
  | nil => rfl
  | cons e es ih =>
    rw [List.map_cons, findEntry?_cons, findEntry?_cons,
      Value.sameKey_congr (Value.key_withQueries hf e.1) rfl, ih]
    split <;> rfl

/-- So do writing an entry and bringing the store up to date. -/
theorem withQueries_put (hf : ∀ n, (f n).name = n) (s : Store) (key : Value) (e : Entry) :
    (s.put key e).withQueries f =
      (s.withQueries f).put (key.withQueries f) (e.withQueries f) := by
  obtain ⟨filtersKey, es⟩ := s
  refine congrArg (Store.mk filtersKey) ?_
  change (insertEntry es key e).map (fun e => (e.1.withQueries f, e.2.withQueries f)) =
    insertEntry (es.map fun e => (e.1.withQueries f, e.2.withQueries f)) _ _
  induction es with
  | nil => rfl
  | cons m es ih =>
    obtain ⟨k, old⟩ := m
    have hkey : Value.sameKey (k.withQueries f) (key.withQueries f) = Value.sameKey k key :=
      Value.sameKey_congr (Value.key_withQueries hf k) (Value.key_withQueries hf key)
    rw [insertEntry, List.map_cons, insertEntry, hkey]
    split
    · rfl
    · rw [List.map_cons, ih]

/-- The store with an entry under a key, if there is one to write. -/
def write? (s : Store) (key : Value) : Option Entry → Store
  | none => s
  | some e => s.put key e

@[simp] theorem rowFilterKey_write? (s : Store) (key : Value) (w : Option Entry) :
    (s.write? key w).rowFilterKey = s.rowFilterKey := by
  cases w <;> rfl

/-- A write under another key is not seen. -/
theorem get?_write?_other {key key' : Value} (h : key.key ≠ key'.key) (s : Store)
    (w : Option Entry) : (s.write? key w).get? key' = s.get? key' := by
  have hsame : Value.sameKey key key' = false := by
    rw [← Bool.not_eq_true]
    intro hsame
    obtain ⟨k, hk, hk', -⟩ := Value.sameKey_iff.1 hsame
    exact h (hk.trans hk'.symm)
  cases w with
  | none => rfl
  | some e => exact get?_put_other hsame e

namespace Same

theorem symm (h : s.Same t) : t.Same s := fun f hf => (h f hf).symm

theorem trans {u : Store} (h : s.Same t) (h' : t.Same u) : s.Same u :=
  fun f hf => (h f hf).trans (h' f hf)

theorem rowFilterKey (h : s.Same t) : s.rowFilterKey = t.rowFilterKey := by
  show (s.withQueries blankQueries).rowFilterKey = (t.withQueries blankQueries).rowFilterKey
  rw [h _ name_blankQueries]

theorem get? (h : s.Same t) (key : Value) : Entry.Same (s.get? key) (t.get? key) := by
  intro f hf
  rw [← get?_withQueries_of_names hf, ← get?_withQueries_of_names hf, h f hf]

/-- The same entry may be written, and under a key that is the same. -/
theorem write? (h : s.Same t) {k l : Value} (hkey : k.Same l) {w w' : Option Entry}
    (hw : Entry.Same w w') : (s.write? k w).Same (t.write? l w') := by
  intro f hf
  have hentry := hw f hf
  cases w with
  | none =>
    cases w' with
    | none => exact h f hf
    | some e' => cases hentry
  | some e =>
    cases w' with
    | none => cases hentry
    | some e' =>
      show (s.put k e).withQueries f = (t.put l e').withQueries f
      have he : e.withQueries f = e'.withQueries f := Option.some.inj hentry
      rw [withQueries_put hf, withQueries_put hf, h f hf, hkey f hf, he]

end Same

theorem same_withQueries (hf : ∀ n, (f n).name = n) (s : Store) : (s.withQueries f).Same s := by
  intro g _
  exact withQueries_withQueries hf s

/-! ## Writes under different keys -/

/-- An entry that is there is replaced in its place, so the order of two writes does not matter. -/
theorem insertEntry_comm {es : List (Value × Entry)} {k l : Value} (hkl : k.key ≠ l.key)
    (hk : findEntry? es k ≠ none) (hl : findEntry? es l ≠ none) (e e' : Entry) :
    insertEntry (insertEntry es k e) l e' = insertEntry (insertEntry es l e') k e := by
  induction es with
  | nil => exact absurd rfl hk
  | cons m es ih =>
    obtain ⟨a, old⟩ := m
    rw [findEntry?_cons] at hk hl
    by_cases hak : Value.sameKey a k = true
    · have hal : ¬ Value.sameKey a l = true := by
        intro hal
        obtain ⟨x, hx, hx', -⟩ := Value.sameKey_iff.1 hak
        obtain ⟨y, hy, hy', -⟩ := Value.sameKey_iff.1 hal
        rw [hx, Except.ok.injEq] at hy
        exact hkl (by rw [hx', hy', hy])
      simp only [insertEntry, if_pos hak, if_neg hal]
    · by_cases hal : Value.sameKey a l = true
      · simp only [insertEntry, if_neg hak, if_pos hal]
      · rw [if_neg hak] at hk
        rw [if_neg hal] at hl
        simp only [insertEntry, if_neg hak, if_neg hal, ih hk hl]

/-- Writes under two keys that are there may change places. -/
theorem write?_comm {s : Store} {k l : Value} (hkl : k.key ≠ l.key) (hk : s.get? k ≠ none)
    (hl : s.get? l ≠ none) (w w' : Option Entry) :
    (s.write? k w).write? l w' = (s.write? l w').write? k w := by
  cases w with
  | none => rfl
  | some e =>
    cases w' with
    | none => rfl
    | some e' => exact congrArg (Store.mk s.rowFilterKey) (insertEntry_comm hkl hk hl e e')

end Store

end RowQuery
