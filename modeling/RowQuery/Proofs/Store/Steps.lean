import RowQuery.Proofs.Action
import RowQuery.Proofs.Value.Key
import RowQuery.Store.Basic

/-!
# Steps of stores

What each operation of a store can do. An operation fails and leaves the store as it is, or it puts
one entry; the lemmas below say which entry, and under which conditions. Putting an entry touches no
other key.
-/

namespace RowQuery.Store

open RowQuery.Action (effect Fails Keeps)
open Value (sameKey)

set_option autoImplicit false

/-! ## Entries -/

/-- The first entry counts that stands under the key, in any of its forms. -/
theorem findEntry?_cons (k : Value) (e : Entry) (es : List (Value × Entry)) (key : Value) :
    findEntry? ((k, e) :: es) key = if sameKey k key then some e else findEntry? es key := by
  cases h : sameKey k key <;> simp [h, findEntry?]

/-- The entry that was put is found. -/
theorem findEntry?_insertEntry_same {key key' : Value} (h : sameKey key key' = true) (e : Entry)
    (es : List (Value × Entry)) : findEntry? (insertEntry es key e) key' = some e := by
  induction es with
  | nil => rw [insertEntry, findEntry?_cons, if_pos h]
  | cons m es ih =>
    obtain ⟨k, old⟩ := m
    rw [insertEntry]
    split
    · next hk => rw [findEntry?_cons, if_pos (Value.sameKey_trans hk h)]
    · next hk =>
      rw [findEntry?_cons, ih]
      split
      · next hk' => exact absurd (Value.sameKey_trans hk' (Value.sameKey_symm h)) hk
      · rfl

/-- Under another key nothing changes. -/
theorem findEntry?_insertEntry_other {key key' : Value} (h : sameKey key key' = false) (e : Entry)
    (es : List (Value × Entry)) :
    findEntry? (insertEntry es key e) key' = findEntry? es key' := by
  induction es with
  | nil => rw [insertEntry, findEntry?_cons, h]; rfl
  | cons m es ih =>
    obtain ⟨k, old⟩ := m
    rw [insertEntry]
    split
    · next hk =>
      have hk' : sameKey k key' = false := by
        cases hk' : sameKey k key' with
        | false => rfl
        | true => rw [Value.sameKey_trans (Value.sameKey_symm hk) hk'] at h; cases h
      simp only [findEntry?_cons, hk', Bool.false_eq_true, if_false]
    · rw [findEntry?_cons, findEntry?_cons, ih]

theorem get?_put_same {s : Store} {key key' : Value} (h : sameKey key key' = true) (e : Entry) :
    (s.put key e).get? key' = some e := findEntry?_insertEntry_same h e s.entries

theorem get?_put_other {s : Store} {key key' : Value} (h : sameKey key key' = false) (e : Entry) :
    (s.put key e).get? key' = s.get? key' := findEntry?_insertEntry_other h e s.entries

theorem mem_of_findEntry? {es : List (Value × Entry)} {key : Value} {e : Entry}
    (h : findEntry? es key = some e) : ∃ k, (k, e) ∈ es ∧ sameKey k key = true := by
  obtain ⟨m, hm, rfl⟩ := Option.map_eq_some_iff.1 h
  have hsame : sameKey m.1 key = true := by simpa using List.find?_some hm
  exact ⟨m.1, List.mem_of_find?_eq_some hm, hsame⟩

/-- What stands in a store after an insertion: what was there, or the new entry, under the old form of its key
if there is one. -/
theorem mem_insertEntry {es : List (Value × Entry)} {key : Value} {e : Entry} {m : Value × Entry}
    (h : m ∈ insertEntry es key e) :
    m ∈ es ∨ m.2 = e ∧ (m.1 = key ∨ m.1 ∈ es.map Prod.fst ∧ sameKey m.1 key = true) := by
  induction es with
  | nil => exact .inr (List.mem_singleton.1 h ▸ ⟨rfl, .inl rfl⟩)
  | cons n es ih =>
    obtain ⟨k, old⟩ := n
    rw [insertEntry] at h
    split at h
    · next hk =>
      rcases List.mem_cons.1 h with rfl | h
      · exact .inr ⟨rfl, .inr ⟨List.mem_cons_self, hk⟩⟩
      · exact .inl (List.mem_cons_of_mem _ h)
    · rcases List.mem_cons.1 h with rfl | h
      · exact .inl List.mem_cons_self
      · rcases ih h with hm | ⟨he, hkey | ⟨hmem, hsame⟩⟩
        · exact .inl (List.mem_cons_of_mem _ hm)
        · exact .inr ⟨he, .inl hkey⟩
        · exact .inr ⟨he, .inr ⟨List.mem_cons_of_mem _ hmem, hsame⟩⟩

/-- What holds of all members of a store and of the one that is put holds of all members then. -/
theorem forall_mem_put {P : Value × Entry → Prop} {s : Store} {key : Value} {e : Entry}
    (h : ∀ m ∈ s.entries, P m)
    (he : ∀ k, k = key ∨ k ∈ s.keys ∧ sameKey k key = true → P (k, e)) :
    ∀ m ∈ (s.put key e).entries, P m := by
  intro m hm
  obtain ⟨k, e'⟩ := m
  rcases mem_insertEntry hm with hm | ⟨rfl, hk⟩
  · exact h _ hm
  · exact he k hk

/-- A key that stands in a list keeps its place and its form; a new one goes to the end. -/
def addKey (ks : List Value) (key : Value) : List Value :=
  if ks.any fun k => sameKey k key then ks else ks ++ [key]

theorem map_fst_insertEntry (es : List (Value × Entry)) (key : Value) (e : Entry) :
    (insertEntry es key e).map Prod.fst = addKey (es.map Prod.fst) key := by
  induction es with
  | nil => rfl
  | cons m es ih =>
    obtain ⟨k, old⟩ := m
    rw [insertEntry]
    cases hk : sameKey k key with
    | true => simp [addKey, hk]
    | false =>
      rw [if_neg Bool.false_ne_true, List.map_cons, ih, List.map_cons, addKey, addKey, List.any_cons,
        hk, Bool.false_or]
      split <;> rfl

/-- Of two writes under one key the last one counts. -/
theorem insertEntry_insertEntry (es : List (Value × Entry)) {key : Value}
    (hkey : sameKey key key = true) (e e' : Entry) :
    insertEntry (insertEntry es key e) key e' = insertEntry es key e' := by
  induction es with
  | nil => simp [insertEntry, hkey]
  | cons m es ih =>
    obtain ⟨k, old⟩ := m
    cases hk : sameKey k key with
    | true => simp [insertEntry, hk]
    | false => simp [insertEntry, hk, ih]

/-- A key that is new goes to the end. -/
theorem insertEntry_of_new {es : List (Value × Entry)} {key : Value} (e : Entry)
    (h : ∀ m ∈ es, sameKey m.1 key = false) : insertEntry es key e = es ++ [(key, e)] := by
  induction es with
  | nil => rfl
  | cons m es ih =>
    rw [insertEntry, if_neg (by simp [h m List.mem_cons_self]),
      ih fun n hn => h n (List.mem_cons_of_mem _ hn), List.cons_append]

theorem keys_put (s : Store) (key : Value) (e : Entry) :
    (s.put key e).keys = addKey s.keys key := map_fst_insertEntry s.entries key e

@[simp] theorem rowFilterKey_put (s : Store) (key : Value) (e : Entry) :
    (s.put key e).rowFilterKey = s.rowFilterKey := rfl

/-! ## Row filters -/

/-- No entry of another kind stands under the key of the row filters. -/
def Open (s : Store) : Prop :=
  ∀ e, s.get? (.text s.rowFilterKey) = some e → e.kind = .rowFilters

def putRowFilters (s : Store) (filters : List RowFilter) : Store :=
  s.put (.text s.rowFilterKey) (.rowFilters filters)

@[simp] theorem rowFilters_putRowFilters (s : Store) (filters : List RowFilter) :
    (s.putRowFilters filters).rowFilters = filters := by
  have h : (s.putRowFilters filters).get? (.text (s.putRowFilters filters).rowFilterKey) =
      some (.rowFilters filters) := get?_put_same (Value.sameKey_text_iff.2 rfl) _
  unfold rowFilters
  rw [h]

theorem mem_rowFilters {s : Store} {f : RowFilter} (h : f ∈ s.rowFilters) :
    ∃ fs, s.get? (.text s.rowFilterKey) = some (.rowFilters fs) ∧ f ∈ fs := by
  unfold rowFilters at h
  split at h
  · next fs hfs => exact ⟨fs, hfs, h⟩
  · cases h

/-- An entry under another key keeps the row filters. -/
theorem rowFilters_put {s : Store} {key : Value} (h : sameKey key (.text s.rowFilterKey) = false)
    (e : Entry) : (s.put key e).rowFilters = s.rowFilters := by
  unfold rowFilters
  rw [rowFilterKey_put, get?_put_other h]

/-- Where no other kind is in the way, the row filters are what is found under their key. -/
theorem Open.get?_eq {s : Store} (h : s.Open) :
    s.get? (.text s.rowFilterKey) = none ∧ s.rowFilters = [] ∨
      s.get? (.text s.rowFilterKey) = some (.rowFilters s.rowFilters) := by
  unfold rowFilters
  cases he : s.get? (.text s.rowFilterKey) with
  | none => exact .inl ⟨rfl, rfl⟩
  | some e =>
    cases e with
    | rowFilters filters => exact .inr rfl
    | scalar | commaList => cases h _ he

/-! ## Operations -/

theorem fails_refuse {α : Type} (key value : Value) (problem : Shown → Shown → ArgumentProblem)
    (s : Store) : Fails (refuse key value problem : Action Store α) s := by
  apply (Action.keeps_displayed key).fails_bind
  intro shownKey
  apply (Action.keeps_inspected value).fails_bind
  intro shown
  exact Action.fails_fail _ s

theorem fails_conflict {α : Type} (key : Value) (e : Entry) (s : Store) :
    Fails (conflict key e : Action Store α) s := by
  apply (Action.keeps_displayed key).fails_bind
  intro shownKey
  exact Action.fails_fail _ s

/-- A value is a key when it has the form of one. -/
def IsKey (key : Value) : Prop := ∃ k, key.key = .ok k

/-- A key is looked up, or it is no key and nothing changes. -/
theorem look_cases (key : Value) (s : Store) :
    Fails (look key) s ∨ IsKey key ∧ effect (look key) s = (.ok (s.get? key), s) := by
  unfold look
  cases h : key.key with
  | error type => exact .inl (Action.fails_fail _ s)
  | ok k => exact .inr ⟨⟨k, h⟩, by simp⟩

@[simp] theorem effect_save (key : Value) (e : Entry) (s : Store) :
    effect (save key e) s = (.ok (), s.put key e) := by
  simp [save]

theorem noteReplaced_cases (key : Value) (old : Option Entry) (s : Store) :
    Fails (noteReplaced key old) s ∨ effect (noteReplaced key old) s = (.ok (), s) := by
  unfold noteReplaced
  split
  · exact .inr rfl
  · exact .inr rfl
  · cases hk : key.displayed with
    | error e => exact .inl ⟨e, by simp [hk]⟩
    | ok shown => exact .inr (by simp [hk])

/-- A finite value of a scalar type takes the place of any entry of its key. -/
theorem set_cases (key v : Value) (s : Store) :
    Fails (set key v) s ∨ IsKey key ∧ isScalar v.normalize = true ∧ v.normalize.isFinite = true ∧
      effect (set key v) s = (.ok (), s.put key (.scalar v.normalize)) := by
  cases hs : isScalar v.normalize with
  | false =>
    obtain ⟨e, he⟩ := fails_refuse (α := Unit) key v.normalize .unsupportedScalar s
    exact .inl ⟨e, by simp [set, hs, he]⟩
  | true =>
    cases hf : v.normalize.isFinite with
    | false =>
      obtain ⟨e, he⟩ := fails_refuse (α := Unit) key v.normalize .nonFiniteParameter s
      exact .inl ⟨e, by simp [set, hs, hf, he]⟩
    | true =>
      rcases look_cases key s with ⟨e, hl⟩ | ⟨hk, hl⟩
      · exact .inl ⟨e, by simp [set, hs, hf, hl]⟩
      · rcases noteReplaced_cases key (s.get? key) s with ⟨e, hn⟩ | hn
        · exact .inl ⟨e, by simp [set, hs, hf, hl, hn]⟩
        · exact .inr ⟨hk, rfl, rfl, by simp [set, hs, hf, hl, hn]⟩

@[simp] theorem effect_look_text (k : Text) (s : Store) :
    effect (look (.text k)) s = (.ok (s.get? (.text k)), s) := by
  simp [look, Value.key]

@[simp] theorem effect_noteReplaced_text (k : Text) (old : Option Entry) (s : Store) :
    effect (noteReplaced (.text k) old) s = (.ok (), s) := by
  unfold noteReplaced
  split
  · rfl
  · rfl
  · rfl

/-- Under a text as its key a finite value of a scalar type is always written. -/
theorem effect_set_text {v : Value} (hs : isScalar v.normalize = true)
    (hf : v.normalize.isFinite = true) (k : Text) (s : Store) :
    effect (set (.text k) v) s = (.ok (), s.put (.text k) (.scalar v.normalize)) := by
  simp [set, hs, hf]

/-- A finite value goes to the end of the comma list of its key, which may be new. -/
theorem append_cases (key v : Value) (s : Store) :
    Fails (append key v) s ∨ IsKey key ∧ v.normalize.isFinite = true ∧
      ∃ values, (s.get? key = none ∧ values = [] ∨ s.get? key = some (.commaList values)) ∧
        effect (append key v) s = (.ok (), s.put key (.commaList (values ++ [v.normalize]))) := by
  cases hf : v.normalize.isFinite with
  | false =>
    obtain ⟨e, he⟩ := fails_refuse (α := Unit) key v.normalize .nonFiniteParameter s
    exact .inl ⟨e, by simp [append, hf, he]⟩
  | true =>
    rcases look_cases key s with ⟨e, hl⟩ | ⟨hk, hl⟩
    · exact .inl ⟨e, by simp [append, hf, hl]⟩
    · cases he : s.get? key with
      | none => exact .inr ⟨hk, rfl, [], .inl ⟨rfl, rfl⟩, by simp [append, hf, hl, he]⟩
      | some entry =>
        cases entry with
        | commaList values =>
          exact .inr ⟨hk, rfl, values, .inr rfl, by simp [append, hf, hl, he]⟩
        | scalar w =>
          obtain ⟨e, hc⟩ := fails_conflict (α := Unit) key (.scalar w) s
          exact .inl ⟨e, by simp [append, hf, hl, he, hc]⟩
        | rowFilters filters =>
          obtain ⟨e, hc⟩ := fails_conflict (α := Unit) key (.rowFilters filters) s
          exact .inl ⟨e, by simp [append, hf, hl, he, hc]⟩

theorem openRowFilters_cases (s : Store) :
    ¬ s.Open ∧ Fails openRowFilters s ∨
      s.Open ∧ effect openRowFilters s = (.ok s.rowFilters, s) := by
  by_cases h : s.Open
  · refine .inr ⟨h, ?_⟩
    rcases h.get?_eq with ⟨he, hr⟩ | he
    · simp [openRowFilters, he, hr]
    · simp [openRowFilters, he]
  · refine .inl ⟨h, ?_⟩
    have : ∃ e, s.get? (.text s.rowFilterKey) = some e ∧ e.kind ≠ .rowFilters := by
      simpa [Open] using h
    obtain ⟨e, he, hk⟩ := this
    simp only [openRowFilters, Fails, Action.effect_bind, Action.effect_read, Action.andThen_ok, he]
    cases e with
    | rowFilters => exact absurd rfl hk
    | scalar | commaList => exact fails_conflict _ _ s

/-- Another kind of entry under the key of the row filters is reported. -/
theorem effect_openRowFilters_blocked {s : Store} {e : Entry}
    (he : s.get? (.text s.rowFilterKey) = some e) (hkind : e.kind ≠ .rowFilters) :
    effect openRowFilters s =
      (.error (.conflict ⟨.text s.rowFilterKey, s.rowFilterKey⟩ e.kind), s) := by
  simp only [openRowFilters, Action.effect_bind, Action.effect_read, Action.andThen_ok, he]
  cases e with
  | rowFilters => exact absurd rfl hkind
  | scalar | commaList => rfl

@[simp] theorem effect_saveRowFilters (filters : List RowFilter) (s : Store) :
    effect (saveRowFilters filters) s = (.ok (), s.putRowFilters filters) := by
  simp [saveRowFilters, putRowFilters]

theorem addRowFilter_cases (f : RowFilter) (s : Store) :
    ¬ s.Open ∧ Fails (addRowFilter f) s ∨
      s.Open ∧ effect (addRowFilter f) s = (.ok (), s.putRowFilters (s.rowFilters ++ [f])) := by
  unfold addRowFilter
  rcases openRowFilters_cases s with ⟨ho, hf⟩ | ⟨ho, he⟩
  · exact .inl ⟨ho, hf.bind _⟩
  · exact .inr ⟨ho, by simp [he]⟩

/-- Only a row filter can be added. -/
theorem addFilter_cases (v : Value) (s : Store) :
    Fails (addFilter v) s ∨ ∃ f, v = .filter f ∧ s.Open ∧
      effect (addFilter v) s = (.ok (), s.putRowFilters (s.rowFilters ++ [f])) := by
  unfold addFilter
  split
  · next f =>
    rcases addRowFilter_cases f s with ⟨-, hf⟩ | ⟨ho, he⟩
    · exact .inl hf
    · exact .inr ⟨f, rfl, ho, he⟩
  · exact .inl (Action.fails_fail _ s)

/-- Without operands nothing happens; otherwise the operands become one group. -/
theorem fold_cases (c : Combinator) (joined : List RowFilter) (s : Store) :
    s.rowFilters ++ joined = [] ∧ effect (fold c joined) s = (.ok none, s) ∨
    s.rowFilters ++ joined ≠ [] ∧
      (¬ s.Open ∧ Fails (fold c joined) s ∨
        s.Open ∧ effect (fold c joined) s = (.ok (some (.group c (s.rowFilters ++ joined))),
          s.putRowFilters [.group c (s.rowFilters ++ joined)])) := by
  by_cases hne : (s.rowFilters ++ joined).isEmpty = true
  · refine .inl ⟨List.isEmpty_iff.1 hne, ?_⟩
    simp only [fold, Action.effect_bind, Action.effect_read, Action.andThen_ok, Action.effect_ite,
      hne]
    rfl
  · refine .inr ⟨fun h => hne (List.isEmpty_iff.2 h), ?_⟩
    rcases openRowFilters_cases s with ⟨ho, e, hf⟩ | ⟨ho, he⟩
    · refine .inl ⟨ho, e, ?_⟩
      simp only [fold, Action.effect_bind, Action.effect_read, Action.andThen_ok, Action.effect_ite,
        hne, hf, Action.andThen_error]
      rfl
    · refine .inr ⟨ho, ?_⟩
      simp only [fold, Action.effect_bind, Action.effect_read, Action.andThen_ok, Action.effect_ite,
        hne, he, effect_saveRowFilters]
      rfl

end RowQuery.Store
