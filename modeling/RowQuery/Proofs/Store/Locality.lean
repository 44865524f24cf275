import RowQuery.Proofs.Store.Operations
import RowQuery.Proofs.Store.Sameness

/-!
# What a call reads and writes

A call of a store reads one entry, that of its target, and writes no other. The statements compare two
stores that hold the same under the target, and two calls whose arguments are the same up to the texts
of queries. Main statement: such calls write the same, and they return the same or fail both, with the
same error where their arguments are equal.
-/

namespace RowQuery

open RowQuery.Action (effect Fails)

set_option autoImplicit false

/-- Two results are the same, or they are errors, and the errors are the same where `P` holds. -/
inductive SameResult {α : Type} (P : Prop) : Except Failure α → Except Failure α → Prop
  | ok (a : α) : SameResult P (.ok a) (.ok a)
  | error {e e' : Failure} (h : P → e = e') : SameResult P (.error e) (.error e')

namespace SameResult

variable {α β : Type} {P Q : Prop} {r r' : Except Failure α}

theorem refl (r : Except Failure α) : SameResult P r r := by
  cases r with
  | ok a => exact .ok a
  | error e => exact .error fun _ => rfl

theorem mono (h : SameResult P r r') (hQ : Q → P) : SameResult Q r r' := by
  cases h with
  | ok a => exact .ok a
  | error h => exact .error fun hq => h (hQ hq)

theorem map (h : SameResult P r r') (f : α → β) : SameResult P (r.map f) (r'.map f) := by
  cases h with
  | ok a => exact .ok (f a)
  | error h => exact .error h

/-- Failing with what a computation gave is failing in any case. -/
theorem bind_error {x y : Except Failure β} (g : β → Failure) (h : P → x = y) :
    SameResult (α := α) P (x >>= fun b => .error (g b)) (y >>= fun b => .error (g b)) := by
  have herror : ∀ x : Except Failure β, ∃ e,
      (x >>= fun b => .error (g b) : Except Failure α) = .error e := by
    intro x
    cases x with
    | ok b => exact ⟨g b, rfl⟩
    | error e => exact ⟨e, rfl⟩
  obtain ⟨e, he⟩ := herror x
  obtain ⟨e', he'⟩ := herror y
  rw [he, he']
  refine .error fun hp => ?_
  rw [h hp, he'] at he
  exact Except.error.inj he.symm

end SameResult

namespace Store

/-! ## Actions on two stores -/

/-- Two stores with one key of row filters hold the same under a key. -/
structure Agree (filtersKey : Text) (key : Value) (s t : Store) : Prop where
  left : s.rowFilterKey = filtersKey
  right : t.rowFilterKey = filtersKey
  entry : Entry.Same (s.get? key) (t.get? key)

variable {α β : Type} {P : Prop} {filtersKey : Text} {key : Value} {s t : Store}

/-- What two actions did to two stores: they wrote the same under the key, if anything. -/
structure Alike (P : Prop) (key : Value) (s t : Store) (o o' : Except Failure α × Store) : Prop where
  result : SameResult P o.1 o'.1
  states : ∃ w w', Entry.Same w w' ∧ o.2 = s.write? key w ∧ o'.2 = t.write? key w'

/-- Two actions only read, and what they read is related. -/
inductive Reads (P : Prop) (ρ : α → α → Prop) (s t : Store) :
    Except Failure α × Store → Except Failure α × Store → Prop
  | ok {a a' : α} (h : ρ a a') : Reads P ρ s t (.ok a, s) (.ok a', t)
  | error {e e' : Failure} (h : P → e = e') : Reads P ρ s t (.error e, s) (.error e', t)

/-- What follows two actions that only read works on the stores that were there before. -/
theorem Reads.bind {ρ : α → α → Prop} {x y : Action Store α} {f g : α → Action Store β}
    (h : Reads P ρ s t (effect x s) (effect y t))
    (hrest : ∀ a a', ρ a a' → Alike P key s t (effect (f a) s) (effect (g a') t)) :
    Alike P key s t (effect (x >>= f) s) (effect (y >>= g) t) := by
  rw [Action.effect_bind, Action.effect_bind]
  generalize effect x s = o at h ⊢
  generalize effect y t = o' at h ⊢
  cases h with
  | ok h => exact hrest _ _ h
  | error h => exact ⟨.error h, none, none, .refl none, rfl, rfl⟩

theorem get?_congr {k l : Value} (h : k.key = l.key) : s.get? k = s.get? l := by
  have hsame : ∀ a : Value, Value.sameKey a k = Value.sameKey a l := fun a =>
    Value.sameKey_congr rfl h
  unfold get? findEntry?
  simp only [hsame]

theorem alike_save {e e' : Entry} (h : Entry.Same (some e) (some e')) :
    Alike P key s t (effect (save key e) s) (effect (save key e') t) := by
  rw [effect_save, effect_save]
  exact ⟨.ok (), some e, some e', h, rfl, rfl⟩

/-- Two failures leave both stores. -/
theorem alike_of_fails {x y : Action Store α} (hx : Fails x s) (hy : Fails y t)
    (h : P → (effect x s).1 = (effect y t).1) : Alike P key s t (effect x s) (effect y t) := by
  obtain ⟨e, he⟩ := hx
  obtain ⟨e', he'⟩ := hy
  rw [he, he'] at h ⊢
  refine ⟨.error fun hp => ?_, none, none, .refl none, rfl, rfl⟩
  exact Except.error.inj (h hp)

theorem alike_refuse {v w : Value} (problem : Shown → Shown → ArgumentProblem) (h : P → v = w) :
    Alike P key s t (effect (refuse (α := α) key v problem) s)
      (effect (refuse (α := α) key w problem) t) := by
  apply alike_of_fails (fails_refuse _ _ _ _) (fails_refuse _ _ _ _)
  intro hp
  rw [h hp]
  simp only [refuse, Action.effect_bind, Action.effect_displayed]
  cases key.displayed with
  | error e => rfl
  | ok shown =>
    rw [Action.andThen_ok, Action.andThen_ok, Action.effect_bind, Action.effect_bind,
      Action.effect_inspected, Action.effect_inspected]
    cases w.inspected <;> rfl

theorem reads_look (h : Agree filtersKey key s t) :
    Reads P Entry.Same s t (effect (look key) s) (effect (look key) t) := by
  unfold look
  cases key.key with
  | error type => exact .error fun _ => rfl
  | ok k => exact .ok h.entry

theorem alike_conflict {e e' : Entry} (h : e.kind = e'.kind) :
    Alike P key s t (effect (conflict (α := α) key e) s) (effect (conflict (α := α) key e') t) := by
  apply alike_of_fails (fails_conflict _ _ _) (fails_conflict _ _ _)
  intro _
  simp only [conflict, Action.effect_bind, Action.effect_displayed, h]
  cases key.displayed <;> rfl

/-- What a replaced entry is called depends on its kind alone. -/
theorem effect_noteReplaced {e : Entry} (h : e.kind ≠ .scalar) (s : Store) :
    effect (noteReplaced key (some e)) s = (key.displayed.map fun _ => (), s) := by
  cases e with
  | scalar v => exact absurd rfl h
  | commaList | rowFilters =>
    simp only [noteReplaced, Action.effect_bind, Action.effect_displayed]
    cases key.displayed <;> rfl

theorem reads_noteReplaced {old old' : Option Entry} (h : Entry.Same old old') :
    Reads P (fun _ _ => True) s t (effect (noteReplaced key old) s)
      (effect (noteReplaced key old') t) := by
  have hnoted : ∀ e e' : Entry, e.kind ≠ .scalar → e'.kind ≠ .scalar →
      Reads P (fun _ _ => True) s t (effect (noteReplaced key (some e)) s)
        (effect (noteReplaced key (some e')) t) := by
    intro e e' he he'
    rw [effect_noteReplaced he, effect_noteReplaced he']
    cases key.displayed with
    | error e => exact .error fun _ => rfl
    | ok shown => exact .ok trivial
  rcases h.cases with ⟨rfl, rfl⟩ | ⟨v, w, rfl, rfl⟩ | ⟨vs, ws, rfl, rfl⟩ | ⟨fs, rfl, rfl⟩
  · exact .ok trivial
  · exact .ok trivial
  · exact hnoted _ _ nofun nofun
  · exact hnoted _ _ nofun nofun

/-- Row filters are read from the entry under their key, and other entries there are reported. -/
theorem reads_openRowFilters (h : Agree filtersKey (.text filtersKey) s t) :
    Reads P Eq s t (effect openRowFilters s) (effect openRowFilters t) := by
  simp only [openRowFilters, Action.effect_bind, Action.effect_read, Action.andThen_ok, h.left,
    h.right]
  rcases h.entry.cases with ⟨hs, ht⟩ | ⟨v, w, hs, ht⟩ | ⟨vs, ws, hs, ht⟩ | ⟨fs, hs, ht⟩ <;>
    rw [hs, ht]
  · exact .ok rfl
  · exact .error fun _ => rfl
  · exact .error fun _ => rfl
  · exact .ok rfl

theorem Agree.rowFilters (h : Agree filtersKey (.text filtersKey) s t) :
    s.rowFilters = t.rowFilters := by
  unfold Store.rowFilters
  rw [h.left, h.right]
  rcases h.entry.cases with ⟨hs, ht⟩ | ⟨v, w, hs, ht⟩ | ⟨vs, ws, hs, ht⟩ | ⟨fs, hs, ht⟩ <;>
    rw [hs, ht]

/-! ## Operations on two stores -/

/-- Writing a scalar depends on the entry under its own key only. -/
theorem alike_set {v w : Value} (h : Agree filtersKey key s t) (hv : v.Same w) (hP : P → v = w) :
    Alike P key s t (effect (set key v) s) (effect (set key w) t) := by
  have hsame := hv.normalize
  have hP' : P → v.normalize = w.normalize := fun hp => congrArg Value.normalize (hP hp)
  simp only [set, hsame.isScalar, hsame.isFinite, Action.effect_ite]
  by_cases hscalar : isScalar w.normalize = true
  · by_cases hfinite : w.normalize.isFinite = true
    · simp only [hscalar, hfinite, Bool.not_true, Bool.false_eq_true, if_false]
      apply (reads_look h).bind
      intro old old' hold
      apply (reads_noteReplaced hold).bind
      intro _ _ _
      exact alike_save (.scalar hsame)
    · simp only [hscalar, hfinite, Bool.not_true, Bool.false_eq_true, if_false, Bool.not_false,
        if_true]
      exact alike_refuse _ hP'
  · simp only [hscalar, Bool.not_false, if_true]
    exact alike_refuse _ hP'

/-- So does adding to a comma list. -/
theorem alike_append {v w : Value} (h : Agree filtersKey key s t) (hv : v.Same w)
    (hP : P → v = w) : Alike P key s t (effect (append key v) s) (effect (append key w) t) := by
  have hsame := hv.normalize
  simp only [append, hsame.isFinite, Action.effect_ite]
  by_cases hfinite : w.normalize.isFinite = true
  · simp only [hfinite, Bool.not_true, Bool.false_eq_true, if_false]
    apply (reads_look h).bind
    intro old old' hold
    rcases hold.cases with ⟨rfl, rfl⟩ | ⟨u, u', rfl, rfl⟩ | ⟨vs, ws, rfl, rfl⟩ | ⟨fs, rfl, rfl⟩
    · exact alike_save (Entry.Same.append (.refl (some (.commaList []))) hsame)
    · exact alike_conflict rfl
    · exact alike_save (hold.append hsame)
    · exact alike_conflict rfl
  · simp only [hfinite, Bool.not_false, if_true]
    exact alike_refuse _ fun hp => congrArg Value.normalize (hP hp)

theorem alike_saveRowFilters (h : Agree filtersKey (.text filtersKey) s t)
    (filters : List RowFilter) :
    Alike P (.text filtersKey) s t (effect (saveRowFilters filters) s)
      (effect (saveRowFilters filters) t) := by
  rw [effect_saveRowFilters, effect_saveRowFilters, putRowFilters, putRowFilters, h.left, h.right]
  exact ⟨.ok (), some (.rowFilters filters), some (.rowFilters filters), .refl _, rfl, rfl⟩

theorem alike_addFilter {v w : Value} (h : Agree filtersKey (.text filtersKey) s t)
    (hv : v.Same w) :
    Alike P (.text filtersKey) s t (effect (addFilter v) s) (effect (addFilter w) t) := by
  by_cases hfilter : ∃ f, v = .filter f
  · obtain ⟨f, rfl⟩ := hfilter
    rw [hv.eq_filter.1 rfl]
    apply (reads_openRowFilters h).bind
    rintro filters _ rfl
    exact alike_saveRowFilters h _
  · have hfails : ∀ (v : Value) (s : Store), (¬ ∃ f, v = .filter f) →
        effect (addFilter v) s = (.error (.argument (.notRowFilter v.typeName)), s) := by
      intro v s hv
      cases v with
      | filter f => exact absurd ⟨f, rfl⟩ hv
      | _ => rfl
    have hfilter' : ¬ ∃ f, w = .filter f := fun ⟨f, hf⟩ => hfilter ⟨f, hv.eq_filter.2 hf⟩
    rw [hfails v s hfilter, hfails w t hfilter', hv.typeName]
    exact ⟨.error fun _ => rfl, none, none, .refl none, rfl, rfl⟩

/-- A fold of gathered row filters depends on the entry of the row filters only. -/
theorem alike_fold (h : Agree filtersKey (.text filtersKey) s t) (c : Combinator)
    (joined : List RowFilter) :
    Alike P (.text filtersKey) s t (effect (fold c joined) s) (effect (fold c joined) t) := by
  simp only [fold, Action.effect_bind, Action.effect_read, Action.andThen_ok, Action.effect_ite,
    h.rowFilters]
  split
  · exact ⟨.ok none, none, none, .refl none, rfl, rfl⟩
  · rw [← Action.effect_bind, ← Action.effect_bind]
    apply (reads_openRowFilters h).bind
    rintro filters _ rfl
    simp only [Action.effect_bind, effect_saveRowFilters, putRowFilters, h.left, h.right]
    exact ⟨.ok _, some _, some _, .refl _, rfl, rfl⟩

namespace Operation

/-- The key whose entry a call reads and writes. -/
def target (filtersKey : Text) : Operation → Value
  | set key _ | append key _ => key
  | addRowFilter _ | fold .. => .text filtersKey

/-- The call with the queries in its arguments replaced by name. -/
def withQueries (f : Text → QueryHandle) : Operation → Operation
  | set key v => set (key.withQueries f) (v.withQueries f)
  | append key v => append (key.withQueries f) (v.withQueries f)
  | addRowFilter v => addRowFilter (v.withQueries f)
  | fold combinator sources => fold (combinator.withQueries f) (sources.withQueries f)

variable {f g : Text → QueryHandle}

theorem sourceFilters_withQueries (hf : ∀ n, (f n).name = n) (family : Family) (self : Text)
    (vs : List Value) :
    family.sourceFilters self (Value.allWithQueries f vs) = family.sourceFilters self vs := by
  induction vs with
  | nil => rfl
  | cons v vs ih =>
    cases v with
    | store name keys =>
      change family.sourceFilters self (.store name keys :: Value.allWithQueries f vs) = _
      rw [Family.sourceFilters, Family.sourceFilters, ih]
    | query q =>
      change family.sourceFilters self (.query (f q.name) :: Value.allWithQueries f vs) = _
      rw [Family.sourceFilters, Family.sourceFilters, ih, hf]
    | _ => rfl

theorem map_fst_membersWithQueries (ms : List (Value × Value)) :
    (Value.membersWithQueries f ms).map Prod.fst =
      Value.allWithQueries f (ms.map Prod.fst) := by
  induction ms with
  | nil => rfl
  | cons m ms ih =>
    rw [Value.membersWithQueries, List.map_cons, List.map_cons, Value.allWithQueries, ih]

/-- What a fold gathers does not depend on the texts of queries. -/
theorem loop_withQueries (hf : ∀ n, (f n).name = n) (family : Family) (self : Text) (sources : Value) :
    ((sources.withQueries f).loop >>= family.sourceFilters self) =
      (sources.loop >>= family.sourceFilters self) := by
  cases sources with
  | list items | tuple items | set items => exact sourceFilters_withQueries hf family self items
  | mapping members =>
    show family.sourceFilters self ((Value.membersWithQueries f members).map Prod.fst) = _
    rw [map_fst_membersWithQueries]
    exact sourceFilters_withQueries hf family self (members.map Prod.fst)
  | _ => rfl

/-- What two calls did to two stores of one name in a family. -/
structure Alike {α : Type} (P : Prop) (family : Family) (self : Text) (key : Value) (s t : Store)
    (o o' : Except Failure α × Family) : Prop where
  result : SameResult P o.1 o'.1
  states : ∃ w w', Entry.Same w w' ∧ o.2 = family.put self (s.write? key w) ∧
    o'.2 = family.put self (t.write? key w')

variable {family : Family} {self : Text}

theorem alike_focus {x y : Action Store α} (h : Store.Alike P key s t (effect x s) (effect y t)) :
    Alike P family self key s t (effect (Family.focus self x) (family.put self s))
      (effect (Family.focus self y) (family.put self t)) := by
  obtain ⟨hresult, w, w', hw, hs, ht⟩ := h
  rw [Family.effect_focus, Family.effect_focus, Family.get_put_same, Family.get_put_same,
    Family.put_put, Family.put_put, hs, ht]
  exact ⟨hresult, w, w', hw, rfl, rfl⟩

theorem alike_focus_none {x y : Action Store Unit}
    (h : Store.Alike P key s t (effect x s) (effect y t)) :
    Alike P family self key s t
      (effect (do Family.focus self x; pure none : Action Family (Option RowFilter))
        (family.put self s))
      (effect (do Family.focus self y; pure none : Action Family (Option RowFilter))
        (family.put self t)) := by
  have hfocus : Alike P family self key s t (effect (Family.focus self x) (family.put self s))
      (effect (Family.focus self y) (family.put self t)) := alike_focus h
  obtain ⟨hresult, hstates⟩ := hfocus
  rw [effect_focus_none, effect_focus_none]
  exact ⟨hresult.map _, hstates⟩

/-- A fold gathers the same from its sources, whichever of two stores with the same row filters it works on. -/
theorem sourceFilters_put (h : s.rowFilters = t.rowFilters) (family : Family) (self : Text)
    (vs : List Value) :
    (family.put self s).sourceFilters self vs = (family.put self t).sourceFilters self vs := by
  have hget : ∀ name, ((family.put self s).get name).rowFilters =
      ((family.put self t).get name).rowFilters := by
    intro name
    by_cases hname : name = self
    · rw [hname, Family.get_put_same, Family.get_put_same, h]
    · rw [Family.get_put_other hname, Family.get_put_other hname]
  induction vs with
  | nil => rfl
  | cons v vs ih =>
    cases v with
    | store name keys => rw [Family.sourceFilters, Family.sourceFilters, ih, hget]
    | query q => rw [Family.sourceFilters, Family.sourceFilters, ih, hget]
    | _ => rfl

/-- The same for a fold of any values, whose sources are looked up in the family. -/
theorem alike_foldValues (h : Agree filtersKey (.text filtersKey) s t) (combinator sources : Value)
    (hf : ∀ n, (f n).name = n) (hg : ∀ n, (g n).name = n)
    (hP : P → combinator.withQueries f = combinator.withQueries g) :
    Alike P family self (.text filtersKey) s t
      (effect (Family.foldValues self (combinator.withQueries f) (sources.withQueries f))
        (family.put self s))
      (effect (Family.foldValues self (combinator.withQueries g) (sources.withQueries g))
        (family.put self t)) := by
  have hcombinator := Value.text?_withQueries (f := f) combinator
  have hcombinator' := Value.text?_withQueries (f := g) combinator
  cases hc : combinator.normalize.text?.bind Combinator.ofWire? with
  | none =>
    rw [effect_foldValues_none (hcombinator ▸ hc), effect_foldValues_none (hcombinator' ▸ hc)]
    refine ⟨.bind_error _ fun hp => ?_, none, none, .refl none, rfl, rfl⟩
    rw [hP hp]
  | some c =>
    simp only [Family.foldValues, Action.effect_bind, effect_ofValue_some (hcombinator ▸ hc),
      effect_ofValue_some (hcombinator' ▸ hc), Action.andThen_ok, Action.effect_read, Action.effect_lift,
      loop_withQueries hf, loop_withQueries hg]
    have hsources : sources.loop >>= (family.put self s).sourceFilters self =
        sources.loop >>= (family.put self t).sourceFilters self := by
      cases sources.loop with
      | error e => rfl
      | ok vs => exact sourceFilters_put h.rowFilters family self vs
    rw [hsources]
    cases sources.loop >>= (family.put self t).sourceFilters self with
    | error e => exact ⟨.refl _, none, none, .refl none, rfl, rfl⟩
    | ok joined => exact alike_focus (alike_fold h c joined)

/-- A call of two stores that hold the same under its target, where the queries in the arguments may
have other texts: the same is written in both, and both give the same or fail. -/
theorem alike_run (family : Family) (self : Text) {op : Operation} (h : Agree filtersKey (op.target filtersKey) s t)
    (hf : ∀ n, (f n).name = n) (hg : ∀ n, (g n).name = n)
    (hkey : (op.target filtersKey).withQueries f = (op.target filtersKey).withQueries g) :
    Alike (op.withQueries f = op.withQueries g) family self
      ((op.target filtersKey).withQueries f) s t
      (effect ((op.withQueries f).run self) (family.put self s))
      (effect ((op.withQueries g).run self) (family.put self t)) := by
  have hupdated : ∀ key : Value, Agree filtersKey key s t →
      Agree filtersKey (key.withQueries f) s t := by
    intro key h
    refine ⟨h.left, h.right, ?_⟩
    rw [get?_congr (Value.key_withQueries hf key), get?_congr (Value.key_withQueries hf key)]
    exact h.entry
  cases op with
  | set key v =>
    have hk : key.withQueries f = key.withQueries g := hkey
    rw [withQueries, withQueries, run, run, ← hk]
    apply alike_focus_none
    apply alike_set (hupdated key h) (Value.same_withQueries hf hg v)
    intro hp
    exact (Operation.set.inj hp).2
  | append key v =>
    have hk : key.withQueries f = key.withQueries g := hkey
    rw [withQueries, withQueries, run, run, ← hk]
    apply alike_focus_none
    apply alike_append (hupdated key h) (Value.same_withQueries hf hg v)
    intro hp
    exact (Operation.append.inj hp).2
  | addRowFilter v => exact alike_focus_none (alike_addFilter h (Value.same_withQueries hf hg v))
  | fold combinator sources =>
    apply alike_foldValues h _ _ hf hg
    intro hp
    exact (Operation.fold.inj hp).1

end Operation

end Store

end RowQuery
