import RowQuery.Proofs.Query.Typing

/-!
# Slots of queries

A query that is built in one pass writes its parameters one after the other, each at most once or as a
list that grows at the end. Such a query is a list of slots: parameters in the order of writing, each with
its entry if it has one. What an action does to the last slot is what it does to the query.
-/

namespace RowQuery

open RowQuery.Action (effect)

set_option autoImplicit false

/-! ## Where an action gets -/

namespace Action

variable {σ α β γ : Type}

/-- The state that an action reaches, unless it fails. -/
def reached (x : Action σ Unit) (s : σ) : Except Failure σ := (effect x s).1.map fun _ => (effect x s).2

theorem reached_of_effect {x : Action σ Unit} {s s' : σ} (h : effect x s = (.ok (), s')) :
    reached x s = .ok s' := by
  unfold reached
  rw [h]
  rfl

@[simp] theorem reached_pure (s : σ) : reached (Pure.pure () : Action σ Unit) s = .ok s := rfl

/-- A sequence reaches what its second action reaches from where the first one ends. -/
theorem reached_bind (x : Action σ Unit) (y : Action σ Unit) (s : σ) :
    reached (x >>= fun _ => y) s = reached x s >>= reached y := by
  unfold reached
  rw [effect_bind]
  rcases effect x s with ⟨e | a, s'⟩
  · rfl
  · rfl

theorem reached_lift_bind (x : Except Failure α) (f : α → Action σ Unit) (s : σ) :
    reached (Action.lift x >>= f) s = x >>= fun a => reached (f a) s := by
  unfold reached
  rw [effect_bind, effect_lift]
  cases x <;> rfl

/-- Two steps, each of which reads something and writes it, read both things. -/
theorem reached_andThen {x y : Action σ Unit} {s : σ} {r : Except Failure α} {S : α → σ}
    {q : α → Except Failure β} {T : β → σ} (hx : reached x s = r.map S)
    (hy : ∀ a, reached y (S a) = (q a).map T) : reached (x >>= fun _ => y) s = (r >>= q).map T := by
  rw [reached_bind, hx]
  cases r with
  | error e => rfl
  | ok a => exact hy a

/-- What a list of readings adds, one after the other. -/
def gather (g : γ → Except Failure (List β)) : List γ → Except Failure (List β)
  | [] => .ok []
  | c :: cs => do
    let first ← g c
    let rest ← gather g cs
    .ok (first ++ rest)

/-- Where each step reads something and adds it, the steps add what they read in order. -/
theorem reached_forEach {f : γ → Action σ Unit} {g : γ → Except Failure (List β)} {S : List β → σ}
    (h : ∀ c xs, reached (f c) (S xs) = (g c).map fun ys => S (xs ++ ys)) (cs : List γ)
    (xs : List β) :
    reached (Action.forEach f cs) (S xs) = (gather g cs).map fun ys => S (xs ++ ys) := by
  induction cs generalizing xs with
  | nil => exact congrArg (fun zs => Except.ok (S zs)) (List.append_nil xs).symm
  | cons c cs ih =>
    change reached (f c >>= fun _ => Action.forEach f cs) (S xs) = _
    refine reached_andThen (h c xs) fun first => ?_
    rw [ih]
    cases gather g cs with
    | error e => rfl
    | ok rest => exact congrArg (fun zs => Except.ok (S zs)) (List.append_assoc _ _ _)

end Action

open RowQuery.Action (reached)

/-! ## Slots -/

/-- Parameters in the order of writing, each with its entry if it has one. -/
abbrev Slots := List (Parameter × Option Entry)

namespace Slots

def entries (slots : Slots) : List (Value × Entry) :=
  slots.filterMap fun slot => slot.2.map fun e => (.text slot.1.name, e)

/-- The query of slots. -/
def toStore (slots : Slots) : Store := ⟨Parameter.filters.name, slots.entries⟩

/-- The slots with one more at the end. -/
def add (slots : Slots) (p : Parameter) (e : Option Entry) : Slots := slots ++ [(p, e)]

/-- The parameter has no slot yet. -/
def Lacks (slots : Slots) (p : Parameter) : Prop := ∀ slot ∈ slots, slot.1 ≠ p

variable {slots : Slots} {p : Parameter}

theorem entries_add (slots : Slots) (p : Parameter) (e : Option Entry) :
    (slots.add p e).entries = slots.entries ++ (e.map fun e => (.text p.name, e)).toList := by
  unfold entries add
  rw [List.filterMap_append]
  cases e <;> rfl

theorem toStore_add_none (slots : Slots) (p : Parameter) :
    (slots.add p none).toStore = slots.toStore := by
  unfold toStore
  rw [entries_add]
  exact congrArg _ (List.append_nil _)

theorem Lacks.sameKey (h : slots.Lacks p) :
    ∀ m ∈ slots.entries, m.1.sameKey (.text p.name) = false := by
  intro m hm
  obtain ⟨⟨q, e⟩, hslot, he⟩ := List.mem_filterMap.1 hm
  obtain ⟨e, -, rfl⟩ := Option.map_eq_some_iff.1 he
  rw [Value.sameKey_text]
  exact decide_eq_false fun hname => h _ hslot (Parameter.name_injective hname)

/-- A new slot is found under its parameter. -/
theorem get?_add (h : slots.Lacks p) (e : Option Entry) :
    (slots.add p e).toStore.get? (.text p.name) = e := by
  have hskip : ∀ ms : List (Value × Entry), (∀ m ∈ ms, m.1.sameKey (.text p.name) = false) →
      ∀ rest, Store.findEntry? (ms ++ rest) (.text p.name) = Store.findEntry? rest (.text p.name) := by
    intro ms hms rest
    induction ms with
    | nil => rfl
    | cons m ms ih =>
      rw [List.cons_append, Store.findEntry?_cons, if_neg (by simp [hms m List.mem_cons_self])]
      exact ih fun n hn => hms n (List.mem_cons_of_mem _ hn)
  unfold toStore Store.get?
  rw [entries_add, hskip _ h.sameKey]
  cases e <;> simp [Store.findEntry?]

/-- A write under the key of the last slot is a write to that slot. -/
theorem put_add (h : slots.Lacks p) (old : Option Entry) (e : Entry) :
    (slots.add p old).toStore.put (.text p.name) e = (slots.add p (some e)).toStore := by
  have hinsert : ∀ ms : List (Value × Entry), (∀ m ∈ ms, m.1.sameKey (.text p.name) = false) →
      Store.insertEntry (ms ++ (old.map fun e => (Value.text p.name, e)).toList) (.text p.name) e =
        ms ++ [(.text p.name, e)] := by
    intro ms hms
    induction ms with
    | nil => cases old <;> simp [Store.insertEntry]
    | cons m ms ih =>
      rw [List.cons_append, Store.insertEntry, if_neg (by simp [hms m List.mem_cons_self]),
        ih fun n hn => hms n (List.mem_cons_of_mem _ hn), List.cons_append]
  unfold Store.put toStore
  rw [entries_add, hinsert _ h.sameKey, entries_add]
  rfl

/-! ## Writing the last slot -/

/-- A failure that shows a key and a value. -/
def refusal {α : Type} (key value : Value) (problem : Shown → Shown → ArgumentProblem) :
    Except Failure α := do
  let k ← key.displayed
  let v ← value.inspected
  .error (.argument (problem k v))

/-- The scalar that a value is as a parameter. -/
def scalarOf (p : Parameter) (v : Value) : Except Failure Value :=
  if !Store.isScalar v.normalize then refusal (.text p.name) v.normalize .unsupportedScalar
  else if !v.normalize.isFinite then refusal (.text p.name) v.normalize .nonFiniteParameter
  else .ok v.normalize

theorem effect_refuse (key value : Value) (problem : Shown → Shown → ArgumentProblem) (s : Store) :
    effect (Store.refuse key value problem : Action Store Unit) s =
      (refusal key value problem, s) := by
  unfold Store.refuse refusal
  simp only [Action.effect_bind, Action.effect_displayed]
  cases key.displayed with
  | error e => rfl
  | ok k =>
    simp only [Action.andThen_ok, Action.effect_bind, Action.effect_inspected]
    cases value.inspected <;> rfl

theorem refusal_map {α β : Type} (f : α → β) (key value : Value)
    (problem : Shown → Shown → ArgumentProblem) :
    (refusal key value problem : Except Failure α).map f = refusal key value problem := by
  unfold refusal
  cases key.displayed with
  | error e => rfl
  | ok k => cases value.inspected <;> rfl

/-- Writing a scalar adds a slot, unless the value is refused. -/
theorem reached_setParameter (h : slots.Lacks p) (v : Value) :
    reached (Query.setParameter p v) slots.toStore =
      (scalarOf p v).map fun w => (slots.add p (some (.scalar w))).toStore := by
  unfold Query.setParameter scalarOf
  cases hs : Store.isScalar v.normalize with
  | false =>
    have hset : Store.set (.text p.name) v =
        Store.refuse (.text p.name) v.normalize .unsupportedScalar := by simp [Store.set, hs]
    unfold reached
    rw [hset, effect_refuse]
    exact (refusal_map _ _ _ _).trans (refusal_map _ _ _ _).symm
  | true =>
    cases hf : v.normalize.isFinite with
    | false =>
      have hset : Store.set (.text p.name) v =
          Store.refuse (.text p.name) v.normalize .nonFiniteParameter := by simp [Store.set, hs, hf]
      unfold reached
      rw [hset, effect_refuse]
      exact (refusal_map _ _ _ _).trans (refusal_map _ _ _ _).symm
    | true =>
      have hwrite := Store.effect_set_text hs hf p.name slots.toStore
      rw [← toStore_add_none slots p, put_add h] at hwrite
      rw [← toStore_add_none slots p]
      exact Action.reached_of_effect hwrite

/-- The entry of a list parameter; an empty list has none. -/
def commaList (vs : List Value) : Option Entry := if vs.isEmpty then none else some (.commaList vs)

/-- The entry of row filters; without row filters there is none. -/
def rowFilters (fs : List RowFilter) : Option Entry :=
  if fs.isEmpty then none else some (.rowFilters fs)

theorem commaList_eq_some {vs : List Value} {e : Entry} (h : commaList vs = some e) :
    e = .commaList vs := by
  unfold commaList at h
  split at h
  · cases h
  · exact (Option.some.inj h).symm

theorem rowFilters_eq_some {fs : List RowFilter} {e : Entry} (h : rowFilters fs = some e) :
    e = .rowFilters fs := by
  unfold rowFilters at h
  split at h
  · cases h
  · exact (Option.some.inj h).symm

theorem commaList_append_singleton (vs : List Value) (v : Value) :
    commaList (vs ++ [v]) = some (.commaList (vs ++ [v])) := if_neg (by simp)

/-- A finite value goes to the end of the list in the last slot. -/
theorem reached_appendParameter (h : slots.Lacks p) (vs : List Value) {v : Value}
    (hf : v.normalize.isFinite = true) :
    reached (Query.appendParameter p v) (slots.add p (commaList vs)).toStore =
      .ok (slots.add p (commaList (vs ++ [v.normalize]))).toStore := by
  have hget := get?_add h (commaList vs)
  have hput := put_add h (commaList vs) (.commaList (vs ++ [v.normalize]))
  refine Action.reached_of_effect ?_
  rw [commaList_append_singleton, ← hput]
  unfold Query.appendParameter Store.append
  cases vs with
  | nil =>
    have hget : (slots.add p (commaList [])).toStore.get? (.text p.name) = none := hget
    simp [hf, hget]
  | cons w vs =>
    have hget : (slots.add p (commaList (w :: vs))).toStore.get? (.text p.name) =
        some (.commaList (w :: vs)) := hget
    simp [hf, hget]

section RowFilters

variable (h : slots.Lacks .filters) (fs : List RowFilter)
include h

theorem isOpen_add : (slots.add .filters (rowFilters fs)).toStore.Open := by
  intro e he
  change (slots.add .filters (rowFilters fs)).toStore.get? (.text Parameter.filters.name) = _ at he
  rw [get?_add h, rowFilters] at he
  split at he
  · cases he
  · cases he
    rfl

theorem rowFilters_add : (slots.add .filters (rowFilters fs)).toStore.rowFilters = fs := by
  have hget : (slots.add .filters (rowFilters fs)).toStore.get?
      (.text (slots.add .filters (rowFilters fs)).toStore.rowFilterKey) = _ := get?_add h _
  unfold Store.rowFilters
  rw [hget]
  cases fs <;> rfl

theorem putRowFilters_add (old : Option Entry) {gs : List RowFilter} (hgs : gs ≠ []) :
    (slots.add .filters old).toStore.putRowFilters gs =
      (slots.add .filters (rowFilters gs)).toStore := by
  have hentry : rowFilters gs = some (.rowFilters gs) := if_neg (by simpa using hgs)
  rw [hentry]
  exact put_add h old _

/-- A row filter goes to the end of the row filters in the last slot. -/
theorem reached_addRowFilter (f : RowFilter) :
    reached (Store.addRowFilter f) (slots.add .filters (rowFilters fs)).toStore =
      .ok (slots.add .filters (rowFilters (fs ++ [f]))).toStore := by
  rcases Store.addRowFilter_cases f (slots.add .filters (rowFilters fs)).toStore with
    ⟨hclosed, -⟩ | ⟨-, heffect⟩
  · exact absurd (isOpen_add h fs) hclosed
  · rw [rowFilters_add h, putRowFilters_add h _ (by simp)] at heffect
    exact Action.reached_of_effect heffect

/-- The row filters in the last slot become one group; without row filters nothing happens. -/
theorem effect_fold (c : Combinator) :
    ∃ f, effect (Store.fold c []) (slots.add .filters (rowFilters fs)).toStore =
      (.ok f, (slots.add .filters (rowFilters (if fs.isEmpty then [] else [.group c fs]))).toStore) := by
  have hopen := isOpen_add h fs
  rcases Store.fold_cases c [] (slots.add .filters (rowFilters fs)).toStore with
    ⟨hempty, heffect⟩ | ⟨hne, ⟨hclosed, -⟩ | ⟨-, heffect⟩⟩
  · rw [rowFilters_add h, List.append_nil] at hempty
    rw [hempty] at heffect ⊢
    exact ⟨none, heffect⟩
  · exact absurd hopen hclosed
  · rw [rowFilters_add h, List.append_nil] at hne heffect
    rw [putRowFilters_add h _ (by simp)] at heffect
    rw [if_neg (by simpa using hne)]
    exact ⟨_, heffect⟩

end RowFilters

end Slots

end RowQuery
