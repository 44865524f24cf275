import RowQuery.Proofs.Query.Conflicts
import RowQuery.Proofs.Query.Conservation

/-!
# Types of parameters

Each parameter of a query holds entries of one type, and the calls of queries write no others. So a
call never meets an entry of another kind where it writes: no run of calls raises a conflict. Main
statement: a call on a typed query leaves a typed query, and if it fails, it fails without a conflict.
-/

namespace RowQuery

open RowQuery.Action (effect Fails Keeps Peaceful)
open Value (sameKey)

set_option autoImplicit false

/-! ## Comma lists -/

/-- The text of a list of texts. -/
theorem Entry.render_texts (ts : List Text) :
    (Entry.commaList (ts.map .text)).render = .ok (Text.join [.scalar ','] ts) := by
  have hrender : (ts.map Value.text).mapM Value.render = Except.ok ts := by
    induction ts with
    | nil => rfl
    | cons t ts ih =>
      rw [List.map_cons, List.mapM_cons, ih]
      rfl
  unfold Entry.render renderCommaList
  dsimp only
  rw [hrender]
  rfl

namespace Store

def listed (s : Store) (p : Parameter) : List Value :=
  match s.get? (.text p.name) with
  | some (.commaList vs) => vs
  | _ => []

/-- No entry of another kind stands where a parameter has its comma list. -/
def Lists (s : Store) (p : Parameter) : Prop :=
  ∀ e, s.get? (.text p.name) = some e → e.kind = .commaList

variable {s : Store} {p : Parameter}

theorem Lists.get? (h : s.Lists p) :
    s.get? (.text p.name) = none ∧ s.listed p = [] ∨
      s.get? (.text p.name) = some (.commaList (s.listed p)) := by
  unfold listed
  cases he : s.get? (.text p.name) with
  | none => exact .inl ⟨rfl, rfl⟩
  | some e =>
    cases e with
    | commaList vs => exact .inr rfl
    | scalar | rowFilters => cases h _ he

theorem listed_put (s : Store) (p : Parameter) (vs : List Value) :
    (s.put (.text p.name) (.commaList vs)).listed p = vs := by
  have hsame : sameKey (.text p.name) (.text p.name) = true := Value.sameKey_text_iff.2 rfl
  rw [listed, get?_put_same hsame]

theorem lists_put (s : Store) (p : Parameter) (vs : List Value) :
    (s.put (.text p.name) (.commaList vs)).Lists p := by
  have hsame : sameKey (.text p.name) (.text p.name) = true := Value.sameKey_text_iff.2 rfl
  intro e he
  rw [get?_put_same hsame] at he
  cases he
  rfl

/-- A finite value is added to a comma list. -/
theorem effect_appendParameter (h : s.Lists p) {v : Value} (hv : v.normalize.isFinite = true) :
    effect (Query.appendParameter p v) s =
      (.ok (), s.put (.text p.name) (.commaList (s.listed p ++ [v.normalize]))) := by
  unfold Query.appendParameter append
  dsimp only
  rw [hv]
  rcases h.get? with ⟨hnone, hnil⟩ | hsome
  · simp [look, Value.key, hnone, hnil]
  · simp [look, Value.key, hsome]

theorem fails_appendParameter (h : ¬ s.Lists p) (v : Value) : Fails (Query.appendParameter p v) s := by
  rcases append_cases (.text p.name) v s with hfails | ⟨-, -, values, hold, -⟩
  · exact hfails
  · refine absurd (fun e he => ?_) h
    rcases hold with ⟨hnone, -⟩ | hsome
    · cases hnone.symm.trans he
    · cases hsome.symm.trans he
      rfl

end Store

/-! ## Typed queries -/

namespace Parameter

theorem name_injective : Function.Injective name := by
  intro p q h
  cases p <;> cases q <;> first | rfl | exact absurd h (by decide)

/-- What the entry of a parameter may be. -/
def Holds : Parameter → Entry → Prop
  | limit, .scalar v | offset, .scalar v => ∃ n, v = .int n
  | includeCount, .scalar v => ∃ b, v = .bool b
  | search, .scalar _ | threshold, .scalar _ => True
  | sort, .commaList _ | select, .commaList _ => True
  | filters, .rowFilters _ => True
  | _, _ => False

theorem Holds.withQueries {p : Parameter} {e : Entry} (h : p.Holds e) (f : Text → QueryHandle) :
    p.Holds (e.withQueries f) := by
  cases e with
  | scalar v =>
    cases p with
    | limit | offset | includeCount =>
      obtain ⟨_, rfl⟩ := h
      exact ⟨_, rfl⟩
    | search | threshold => trivial
    | sort | select | filters => exact h.elim
  | commaList | rowFilters => cases p <;> exact h

/-- A parameter that lists its values. -/
def IsList (p : Parameter) : Prop := p = sort ∨ p = select

theorem IsList.holds_iff {p : Parameter} (hp : p.IsList) (e : Entry) :
    p.Holds e ↔ e.kind = .commaList := by
  rcases hp with rfl | rfl <;> cases e <;> simp [Holds, Entry.kind]

theorem holds_filters_iff (e : Entry) : filters.Holds e ↔ e.kind = .rowFilters := by
  cases e <;> simp [Holds, Entry.kind]

end Parameter

namespace Store

/-- Every key is the name of a parameter that holds the entry. -/
structure Typed (s : Store) : Prop where
  isQuery : s.IsQuery
  entries : ∀ m ∈ s.entries, ∃ p : Parameter, m.1 = .text p.name ∧ p.Holds m.2

theorem typed_empty : (Store.empty Family.defaultKey).Typed := by
  refine ⟨rfl, ?_⟩
  rintro _ ⟨⟩

theorem Typed.get? {s : Store} (h : s.Typed) {p : Parameter} {e : Entry}
    (he : s.get? (.text p.name) = some e) : p.Holds e := by
  obtain ⟨k, hk, hsame⟩ := mem_of_findEntry? he
  obtain ⟨q, rfl, hholds⟩ := h.entries _ hk
  rw [Value.sameKey_text, decide_eq_true_eq] at hsame
  rwa [Parameter.name_injective hsame] at hholds

theorem Typed.lists {s : Store} (h : s.Typed) {p : Parameter} (hp : p.IsList) : s.Lists p :=
  fun e he => (hp.holds_iff e).1 (h.get? he)

theorem Typed.withQueries {s : Store} (h : s.Typed) (f : Text → QueryHandle) :
    (s.withQueries f).Typed := by
  refine ⟨h.isQuery, fun m hm => ?_⟩
  obtain ⟨n, hn, rfl⟩ := List.mem_map.1 hm
  obtain ⟨p, hkey, hholds⟩ := h.entries n hn
  refine ⟨p, ?_, hholds.withQueries f⟩
  rw [hkey]
  rfl

/-- A store stays typed when an entry goes under a parameter that holds it. -/
theorem Typed.put {s : Store} (h : s.Typed) {p : Parameter} {e : Entry} (he : p.Holds e) :
    (s.put (.text p.name) e).Typed := by
  refine ⟨h.isQuery, forall_mem_put h.entries fun k hk => ?_⟩
  rcases hk with rfl | ⟨hmem, hsame⟩
  · exact ⟨p, rfl, he⟩
  · -- The key that stands in the query is the text already, and no word with that wire form.
    obtain ⟨m, hm, rfl⟩ := List.mem_map.1 hmem
    obtain ⟨q, hq, -⟩ := h.entries m hm
    rw [hq, Value.sameKey_text, decide_eq_true_eq] at hsame
    exact ⟨p, hq.trans (congrArg Value.text hsame), he⟩

theorem Typed.key_eq {s : Store} (h : s.Typed) : s.rowFilterKey = Parameter.filters.name := h.isQuery

theorem Typed.isOpen {s : Store} (h : s.Typed) : s.Open := by
  intro e he
  rw [h.key_eq] at he
  exact (Parameter.holds_filters_iff e).1 (h.get? he)

theorem Typed.putRowFilters {s : Store} (h : s.Typed) (fs : List RowFilter) :
    (s.putRowFilters fs).Typed := by
  rw [Store.putRowFilters, h.key_eq]
  exact h.put trivial

def selected (s : Store) : List Value :=
  match s.get? (.text Parameter.select.name) with
  | some (.commaList vs) => vs
  | _ => []

def addSelected (s : Store) : List Value → Store
  | [] => s
  | v :: vs => s.put (.text Parameter.select.name) (.commaList (s.selected ++ v :: vs))

theorem Typed.addSelected {s : Store} (h : s.Typed) (vs : List Value) : (s.addSelected vs).Typed := by
  cases vs with
  | nil => exact h
  | cons v vs => exact h.put trivial

theorem selected_put (s : Store) (vs : List Value) :
    (s.put (.text Parameter.select.name) (.commaList vs)).selected = vs := listed_put s .select vs

theorem addSelected_addSelected (s : Store) (v : Value) (vs : List Value) :
    (s.addSelected [v]).addSelected vs = s.addSelected (v :: vs) := by
  cases vs with
  | nil => rfl
  | cons w ws =>
    rw [addSelected, addSelected, addSelected, selected_put, List.append_assoc, put, put, put,
      insertEntry_insertEntry _ (Value.sameKey_text_iff.2 rfl)]
    rfl

/-! ## What the methods write -/

/-- On a typed query the action fails without a conflict and leaves the query with the `kept` fields
added to its selection, or it succeeds and leaves a typed query. -/
def Settles (x : Action Store Unit) (kept : List Value) : Prop :=
  ∀ s : Store, s.Typed → (∃ e, e.kind ≠ .conflict ∧ effect x s = (.error e, s.addSelected kept)) ∨
    ∃ s' : Store, s'.Typed ∧ effect x s = (.ok (), s')

theorem settles_of_fails {x : Action Store Unit} (hx : ∀ s, Fails x s) (hp : Peaceful x) :
    Settles x [] := by
  intro s _
  obtain ⟨e, he⟩ := hx s
  exact .inl ⟨e, hp s e (congrArg Prod.fst he), he⟩

theorem Settles.after {α : Type} {x : Action Store α} {f : α → Action Store Unit} (hx : Keeps x)
    (hp : Peaceful x) (hf : ∀ a, Settles (f a) []) : Settles (x >>= f) [] := by
  intro s hs
  rcases h : effect x s with ⟨result, s'⟩
  have hkept : s' = s := (congrArg Prod.snd h).symm.trans (hx s)
  rw [Action.effect_bind, h, hkept]
  cases result with
  | error e => exact .inl ⟨e, hp s e (congrArg Prod.fst h), rfl⟩
  | ok a => exact hf a s hs

theorem settles_set {p : Parameter} {v : Value}
    (hv : isScalar v.normalize = true → p.Holds (.scalar v.normalize)) :
    Settles (Query.setParameter p v) [] := by
  intro s hs
  rcases set_cases (.text p.name) v s with ⟨e, he⟩ | ⟨-, hscalar, -, he⟩
  · exact .inl ⟨e, peaceful_set _ v s e (congrArg Prod.fst he), he⟩
  · exact .inr ⟨_, hs.put (hv hscalar), he⟩

/-- A list parameter takes a value, or refuses it without a conflict. -/
theorem settles_append {p : Parameter} (hp : p.IsList) (v : Value) :
    Settles (Query.appendParameter p v) [] := by
  intro s hs
  rcases append_cases (.text p.name) v s with ⟨e, he⟩ | ⟨-, -, values, -, he⟩
  · -- A conflict would come of an entry of another kind, which the type of the parameter excludes.
    refine .inl ⟨e, fun hkind => ?_, he⟩
    obtain ⟨entry, hentry, hne⟩ := conflict_of_append (congrArg Prod.fst he) hkind
    exact hne (hs.lists hp entry hentry)
  · exact .inr ⟨_, hs.put ((hp.holds_iff _).2 rfl), he⟩

theorem settles_addRowFilter (f : RowFilter) : Settles (addRowFilter f) [] := by
  intro s hs
  rcases addRowFilter_cases f s with ⟨hclosed, -⟩ | ⟨-, he⟩
  · exact absurd hs.isOpen hclosed
  · exact .inr ⟨_, hs.putRowFilters _, he⟩

theorem settles_addFilter (v : Value) : Settles (addFilter v) [] := by
  cases v with
  | filter f => exact settles_addRowFilter f
  | _ =>
    exact settles_of_fails (Action.fails_fail _)
      (Action.peaceful_fail (ArgumentProblem.kind_ne_conflict _))

/-- A finite field is added to the selection. -/
theorem effect_select {s : Store} (hs : s.Typed) {v : Value} (hv : v.normalize.isFinite = true) :
    effect (Query.appendParameter .select v) s = (.ok (), s.addSelected [v.normalize]) :=
  effect_appendParameter (hs.lists (.inr rfl)) hv

/-- A number that is not finite is no field. -/
theorem fails_select (s : Store) {v : Value} (hv : v.normalize.isFinite = false) :
    ∃ e, e.kind ≠ .conflict ∧ effect (Query.appendParameter .select v) s = (.error e, s) := by
  obtain ⟨e, he⟩ := fails_refuse (α := Unit) (.text Parameter.select.name) v.normalize
    .nonFiniteParameter s
  refine ⟨e, peaceful_refuse _ _ _ s e (congrArg Prod.fst he), ?_⟩
  rw [← he]
  simp [Query.appendParameter, append, hv]

/-- The fields before the first one that is not finite are added to the selection. -/
theorem settles_selectAll (fields : List Value) :
    Settles (Action.forEach (Query.appendParameter .select) fields)
      ((fields.map Value.normalize).takeWhile Value.isFinite) := by
  induction fields with
  | nil => exact fun s hs => .inr ⟨s, hs, rfl⟩
  | cons v fields ih =>
    intro s hs
    have hbind : effect (Action.forEach (Query.appendParameter .select) (v :: fields)) s =
        Action.andThen (fun _ => Action.forEach (Query.appendParameter .select) fields)
          (effect (Query.appendParameter .select v) s) := Action.effect_bind _ _ s
    rw [hbind, List.map_cons]
    cases hv : v.normalize.isFinite with
    | false =>
      obtain ⟨e, hkind, he⟩ := fails_select s hv
      rw [List.takeWhile_cons_of_neg (by simp [hv]), he]
      exact .inl ⟨e, hkind, rfl⟩
    | true =>
      -- The rest of the fields goes to a query that has this one.
      have hrest := ih _ (hs.addSelected [v.normalize])
      rw [addSelected_addSelected] at hrest
      rw [List.takeWhile_cons_of_pos hv, effect_select hs hv, Action.andThen_ok]
      exact hrest

end Store

namespace Query

open Store (Settles)

theorem settles_limit (v : Value) : Settles (limit v) [] := by
  apply Settles.after (keeps_wholeNumber _ v) (peaceful_wholeNumber _ v)
  intro n
  exact Store.settles_set fun _ => ⟨n, rfl⟩

theorem settles_offset (v : Value) : Settles (offset v) [] := by
  apply Settles.after (keeps_wholeNumber _ v) (peaceful_wholeNumber _ v)
  intro n
  exact Store.settles_set fun _ => ⟨n, rfl⟩

theorem settles_searchExact (term : Value) : Settles (searchExact term) [] := by
  apply Settles.after (Action.keeps_displayed term) (Action.peaceful_displayed term)
  intro shown
  exact Store.settles_set fun _ => trivial

theorem settles_within (shape : Value) : Settles (within shape) [] := by
  unfold within
  split
  · exact Store.settles_addRowFilter _
  · exact Store.settles_of_fails (Action.fails_fail _)
      (Action.peaceful_fail (ArgumentProblem.kind_ne_conflict _))

theorem settles_sort (direction : Direction) (field : Value) : Settles (sort direction field) [] := by
  apply Settles.after (Action.keeps_displayed field) (Action.peaceful_displayed field)
  intro shown
  exact Store.settles_append (.inl rfl) _

theorem settles_sortBlend (rank distance : Value) : Settles (sortBlend rank distance) [] := by
  apply Settles.after (keeps_checkWeight _ rank) (peaceful_checkWeight _ rank)
  intro _
  apply Settles.after (keeps_checkWeight _ distance) (peaceful_checkWeight _ distance)
  intro _
  apply Settles.after (keeps_renderWeight rank) (peaceful_renderWeight rank)
  intro rankText
  apply Settles.after (keeps_renderWeight distance) (peaceful_renderWeight distance)
  intro distanceText
  exact Store.settles_append (.inl rfl) _

theorem settles_addPredicate (key : Value) (operator : Operator) (operand : Value) :
    Settles (addPredicate key operator operand) [] := by
  unfold addPredicate
  split
  · exact Store.settles_of_fails (Store.fails_refuse _ _ _) (Store.peaceful_refuse _ _ _)
  · refine .after (fun s => by simp) (Action.peaceful_lift fun e he => ?_) Store.settles_addRowFilter
    unfold RowFilter.makeField at he
    rcases hparts : RowFilter.fieldOfParts _ with problems | f <;> rw [hparts] at he <;> cases he
    simp [RowFilter.invalid, Failure.kind, Defect.kind]

/-! ## Calls -/

/-- The fields that a selection adds before the first one that it refuses. -/
def Call.accepted : Call → List Value
  | only fields => ((flatten fields).map Value.normalize).takeWhile Value.isFinite
  | _ => []

/-- A call on typed queries fails without a conflict, and then it leaves its query but for the fields
that a selection accepted, or it succeeds and leaves a typed query. -/
theorem call_cases (self : Text) (c : Call) {family : Family} (hall : family.All Store.Typed)
    (hself : family.put self (family.get self) = family) :
    (∃ e, e.kind ≠ .conflict ∧ effect (c.run self) family =
      (.error e, family.put self ((family.get self).addSelected c.accepted))) ∨
    ∃ s : Store, s.Typed ∧ effect (c.run self) family = (.ok (), family.put self s) := by
  -- Apart from folds a call is one action on its query.
  have hfocus : ∀ {x : Action Store Unit}, Settles x c.accepted →
      (∃ e, e.kind ≠ .conflict ∧ effect (Family.focus self x) family =
        (.error e, family.put self ((family.get self).addSelected c.accepted))) ∨
      ∃ s : Store, s.Typed ∧ effect (Family.focus self x) family = (.ok (), family.put self s) := by
    intro x hx
    rw [Family.effect_focus]
    rcases hx (family.get self) (hall self) with ⟨e, hkind, he⟩ | ⟨s, hs, he⟩ <;> rw [he]
    · exact .inl ⟨e, hkind, rfl⟩
    · exact .inr ⟨s, hs, rfl⟩
  cases c with
  | limit v => exact hfocus (settles_limit v)
  | offset v => exact hfocus (settles_offset v)
  | search term => exact hfocus (Store.settles_set fun _ => trivial)
  | searchExact term => exact hfocus (settles_searchExact term)
  | within shape => exact hfocus (settles_within shape)
  | sort direction field => exact hfocus (settles_sort direction field)
  | sortBlend rank distance => exact hfocus (settles_sortBlend rank distance)
  | only fields => exact hfocus (Store.settles_selectAll (flatten fields))
  | includeRowCount wanted => exact hfocus (Store.settles_set fun _ => ⟨_, rfl⟩)
  | threshold v => exact hfocus (Store.settles_set fun _ => trivial)
  | addFilter f => exact hfocus (Store.settles_addFilter f)
  | predicate key operator operand => exact hfocus (settles_addPredicate key operator operand)
  | predicateAny key operator operands => exact hfocus (settles_addPredicate key operator _)
  | fold k queries =>
    cases hnames : sourceNames (flatten queries) with
    | error e =>
      -- A fold checks what it is given before it touches its query.
      refine .inl ⟨e, kind_of_sourceNames hnames, ?_⟩
      have hkept : family.put self ((family.get self).addSelected (Call.fold k queries).accepted) =
          family := hself
      rw [hkept]
      simp only [Call.run, hnames, Action.effect_bind, Action.effect_lift, Action.andThen_error]
    | ok names =>
      rw [effect_run_fold hnames]
      rcases Store.fold_cases k (family.joined self names) (family.get self) with
        ⟨-, he⟩ | ⟨-, ⟨hclosed, -⟩ | ⟨-, he⟩⟩
      · exact .inr ⟨_, hall self, by rw [he]; rfl⟩
      · exact absurd (hall self).isOpen hclosed
      · exact .inr ⟨_, (hall self).putRowFilters _, by rw [he]; rfl⟩

end Query

namespace Family

theorem All.refresh_typed {family : Family} (h : family.All Store.Typed) (self : Text) :
    (family.refresh self).All Store.Typed :=
  h.put ((h self).withQueries _)

end Family

namespace Query

/-! ## Runs -/

/-- A call keeps all queries typed, and raises no conflict. -/
theorem typed_step (self : Text) (c : Call) {family : Family} (hall : family.All Store.Typed) :
    (effect (step self c) family).2.All Store.Typed ∧
      ∀ e, (effect (step self c) family).1 = .error e → e.kind ≠ .conflict := by
  have hbefore := hall.refresh_typed self
  rw [step, Family.effect_upToDate]
  rcases call_cases self c hbefore (family.refresh_put_self self) with
    ⟨e, hkind, he⟩ | ⟨s, hs, he⟩ <;> rw [he]
  · refine ⟨Family.All.refresh_typed (hbefore.put ((hbefore self).addSelected _)) self, ?_⟩
    rintro _ ⟨⟩
    exact hkind
  · refine ⟨Family.All.refresh_typed (hbefore.put hs) self, ?_⟩
    rintro _ ⟨⟩

theorem typed_runFrom {family : Family} (hall : family.All Store.Typed)
    (steps : List (Text × Call)) : (run family steps).All Store.Typed := by
  induction steps generalizing family with
  | nil => exact hall
  | cons st steps ih => exact ih (typed_step st.1 st.2 hall).1

theorem typed_fresh : Family.fresh.All Store.Typed := fun _ => Store.typed_empty

/-- After any calls on queries that start empty, every entry is of the type of its parameter, and no
further call raises a conflict. -/
theorem typed_run (steps : List (Text × Call)) :
    (run Family.fresh steps).All Store.Typed ∧
      ∀ self c e, (effect (step self c) (run Family.fresh steps)).1 = .error e →
        e.kind ≠ .conflict := by
  have hall := typed_runFrom typed_fresh steps
  exact ⟨hall, fun self c => (typed_step self c hall).2⟩

end Query

end RowQuery
