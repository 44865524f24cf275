import RowQuery.Proofs.Filter.Construction
import RowQuery.Proofs.Store.Operations

/-!
# The invariant of stores

What every run of a store keeps, whatever the calls are given and whether they succeed: the keys are
distinct and stand in the order of the writes that brought them in, every entry is one that the store
may hold, and an entry changes its kind only when a scalar takes its place.
-/

namespace RowQuery

open RowQuery.Action (effect)
open Value (sameKey)

set_option autoImplicit false

/-! ## Well-formed stores -/

/-- What may stand under a key of a store whose row filters stand under `filtersKey`. -/
def Entry.WellFormed (filtersKey : Text) (key : Value) : Entry → Prop
  | .scalar v => Store.isScalar v = true ∧ v.isFinite = true
  | .commaList vs => vs ≠ [] ∧ ∀ v ∈ vs, v.isFinite = true
  | .rowFilters fs => sameKey key (.text filtersKey) = true ∧ fs ≠ [] ∧ ∀ f ∈ fs, f.Valid

theorem Entry.WellFormed.of_sameKey {filtersKey : Text} {key stored : Value} {e : Entry}
    (h : e.WellFormed filtersKey key) (hkey : sameKey stored key = true) :
    e.WellFormed filtersKey stored := by
  cases e with
  | scalar | commaList => exact h
  | rowFilters fs =>
    obtain ⟨hfilters, hfs⟩ := h
    exact ⟨Value.sameKey_trans hkey hfilters, hfs⟩

theorem Entry.WellFormed.withQueries {filtersKey : Text} {key : Value} {e : Entry}
    (h : e.WellFormed filtersKey key) (f : Text → QueryHandle) :
    (e.withQueries f).WellFormed filtersKey (key.withQueries f) := by
  cases e with
  | scalar v =>
    obtain ⟨hscalar, hfinite⟩ := h
    exact ⟨(Value.isScalar_withQueries v).trans hscalar,
      (Value.isFinite_withQueries v).trans hfinite⟩
  | commaList vs =>
    obtain ⟨hne, hfinite⟩ := h
    simp only [Entry.withQueries, Value.allWithQueries_eq_map]
    refine ⟨by simpa using hne, fun w hw => ?_⟩
    obtain ⟨v, hv, rfl⟩ := List.mem_map.1 hw
    exact (Value.isFinite_withQueries v).trans (hfinite v hv)
  | rowFilters fs =>
    obtain ⟨hfilters, hfs⟩ := h
    exact ⟨(Value.sameKey_withQueries f key filtersKey).trans hfilters, hfs⟩

namespace Store

/-- The keys are distinct, and every entry may stand under its key. -/
structure WellFormed (s : Store) : Prop where
  distinct : s.keys.Pairwise fun a b => sameKey a b = false
  entries : ∀ m ∈ s.entries, m.2.WellFormed s.rowFilterKey m.1

theorem wellFormed_of_empty {s : Store} (h : s.entries = []) : s.WellFormed := by
  refine ⟨?_, ?_⟩
  · simp [keys, h]
  · simp [h]

theorem keys_withQueries (f : Text → QueryHandle) (s : Store) :
    (s.withQueries f).keys = s.keys.map (Value.withQueries f) := by
  simp [keys, Store.withQueries]

theorem WellFormed.withQueries {s : Store} (h : s.WellFormed) {f : Text → QueryHandle}
    (hf : ∀ n, (f n).name = n) : (s.withQueries f).WellFormed := by
  refine ⟨?_, fun m hm => ?_⟩
  · rw [keys_withQueries, List.pairwise_map]
    refine h.distinct.imp fun {a b} hab => ?_
    rw [Value.sameKey_congr (Value.key_withQueries hf a) (Value.key_withQueries hf b), hab]
  · obtain ⟨n, hn, rfl⟩ := List.mem_map.1 hm
    exact (h.entries n hn).withQueries f

/-- Adding a key keeps the keys distinct. -/
theorem pairwise_addKey {ks : List Value} (h : ks.Pairwise fun a b => sameKey a b = false)
    (key : Value) : (addKey ks key).Pairwise fun a b => sameKey a b = false := by
  unfold addKey
  split
  · exact h
  · next hnew =>
    refine List.pairwise_append.2 ⟨h, List.pairwise_singleton _ _, fun k hk l hl => ?_⟩
    rw [List.mem_singleton.1 hl]
    exact Bool.not_eq_true _ ▸ fun hsame => hnew (List.any_eq_true.2 ⟨k, hk, hsame⟩)

/-- A well-formed entry under its key keeps the store well formed. -/
theorem WellFormed.put {s : Store} (h : s.WellFormed) {key : Value} {e : Entry}
    (he : e.WellFormed s.rowFilterKey key) : (s.put key e).WellFormed := by
  refine ⟨?_, forall_mem_put h.entries fun k hk => ?_⟩
  · rw [keys_put]
    exact pairwise_addKey h.distinct key
  · rcases hk with rfl | ⟨-, hsame⟩
    · exact he
    · exact he.of_sameKey hsame

theorem WellFormed.every {s : Store} (h : s.WellFormed) :
    ∀ m ∈ s.entries, m.2.Every (fun v => v.isFinite = true) RowFilter.Valid := by
  rintro ⟨k, e⟩ hm
  have hentry := h.entries _ hm
  cases e with
  | scalar | commaList => exact hentry.2
  | rowFilters => exact hentry.2.2

/-! ## Order of keys -/

/-- Every entry stays in its place under its key, and keeps its kind unless it becomes a scalar. -/
def Extends (s later : Store) : Prop :=
  ∀ (i : Nat) (m : Value × Entry), s.entries[i]? = some m →
    ∃ m' : Value × Entry, later.entries[i]? = some m' ∧ m'.1.key = m.1.key ∧
      (m'.2.kind = m.2.kind ∨ m'.2.kind = .scalar)

theorem Extends.refl (s : Store) : s.Extends s := fun _ m hm => ⟨m, hm, rfl, .inl rfl⟩

/-- Places and kinds that are kept twice are kept. -/
theorem Extends.trans {s t u : Store} (h : s.Extends t) (h' : t.Extends u) : s.Extends u := by
  intro i m hm
  obtain ⟨m', hm', hkey, hkind⟩ := h i m hm
  obtain ⟨m'', hm'', hkey', hkind'⟩ := h' i m' hm'
  refine ⟨m'', hm'', hkey'.trans hkey, ?_⟩
  rcases hkind' with hkind' | hkind'
  · rw [hkind']
    exact hkind
  · exact .inr hkind'

namespace Operation

/-- A row filter in a call is one that callers can come by. -/
def Built : Operation → Prop
  | addRowFilter v => ∀ f, v = .filter f → f.Built
  | _ => True

theorem Built.brings {op : Operation} (h : op.Built) :
    op.Brings (fun v => v.isFinite = true) RowFilter.Valid := by
  cases op with
  | set | append => exact id
  | addRowFilter v => exact fun f hf => (h f hf).valid
  | fold => trivial

/-- What a call puts under a key may stand there. -/
theorem Writes.wellFormed {family : Family} {self : Text} {op : Operation} {r : Option RowFilter}
    {key : Value} {e : Entry} (h : Writes family self op r key e) (hop : op.Built)
    (hall : family.All WellFormed) : e.WellFormed (family.get self).rowFilterKey key := by
  have hgroup : ∀ c fs, fs ≠ [] → (∀ f ∈ fs, f.Valid) → (RowFilter.group c fs).Valid :=
    fun _ _ hne hfs => ⟨hne, RowFilter.allValid_iff.2 hfs⟩
  have hevery := h.every hop.brings hgroup fun name => (hall name).every
  cases h with
  | scalar hscalar => exact ⟨hscalar, hevery⟩
  | commaList => exact ⟨by simp, hevery⟩
  | rowFilter | group => exact ⟨Value.sameKey_text_iff.2 rfl, by simp, hevery⟩

theorem Built.keptBy {op : Operation} (h : op.Built) : KeptBy WellFormed op where
  update _ _ hf hs := hs.withQueries hf
  write _ self hall _ _ _ hwrites := (hall self).put (hwrites.wellFormed h hall)

/-- Only a scalar takes the place of an entry of another kind. -/
theorem Writes.kind {family : Family} {self : Text} {op : Operation} {r : Option RowFilter}
    {key : Value} {e old : Entry} (h : Writes family self op r key e)
    (hold : (family.get self).get? key = some old) : e.kind = old.kind ∨ e.kind = .scalar := by
  cases h with
  | scalar => exact .inr rfl
  | commaList _ hvalues =>
    rcases hvalues with ⟨hnone, -⟩ | hvalues
    · rw [hnone] at hold
      cases hold
    · rw [hvalues] at hold
      cases hold
      exact .inl rfl
  | rowFilter hopen => exact .inl (hopen old hold).symm
  | group hopen => exact .inl (hopen old hold).symm

/-! ## Steps and runs -/

end Operation

end Store

end RowQuery
