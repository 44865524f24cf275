import RowQuery.Options
import RowQuery.Proofs.Options.Slots

/-!
# Contents of options

What options put into a query, read apart from the query: the readings of the options in their order,
each of which may fail. Main statement: building the query of options fails exactly where reading their
contents fails, with the same failure, and otherwise the query is the contents in their slots.
-/

namespace RowQuery

open RowQuery.Action (effect reached gather)

set_option autoImplicit false

/-- What options put into a query. -/
structure Contents where
  search : Option Value
  filters : List RowFilter
  sorts : List (Text × Direction)
  selects : List Text
  limit : Option Int
  offset : Option Int
  includeCount : Bool
  threshold : Option Value

namespace Contents

open Slots (commaList rowFilters)

/-- What sorts are called on the wire. -/
def sortTokens (sorts : List (Text × Direction)) : List Value :=
  sorts.map fun s => .text (Query.sortToken s.1 s.2)

/-- The slots of the contents, in the order of writing. -/
def slots (c : Contents) : Slots :=
  [(.search, c.search.map .scalar),
    (.filters, rowFilters c.filters),
    (.sort, commaList (sortTokens c.sorts)),
    (.select, commaList (c.selects.map .text)),
    (.limit, c.limit.map fun n => .scalar (.int n)),
    (.offset, c.offset.map fun n => .scalar (.int n)),
    (.includeCount, if c.includeCount then some (.scalar (.bool true)) else none),
    (.threshold, c.threshold.map .scalar)]

/-- Every parameter has one slot. -/
theorem nodup_slots (c : Contents) : (c.slots.map Prod.fst).Nodup := by
  change List.Nodup [Parameter.search, .filters, .sort, .select, .limit, .offset, .includeCount,
    .threshold]
  decide

/-- What holds of the entry that each part of the contents makes holds of every slot. -/
theorem forall_slots {c : Contents} {P : Parameter → Entry → Prop}
    (hsearch : ∀ w, c.search = some w → P .search (.scalar w))
    (hfilters : P .filters (.rowFilters c.filters))
    (hsort : P .sort (.commaList (sortTokens c.sorts)))
    (hselect : P .select (.commaList (c.selects.map .text)))
    (hlimit : ∀ n, c.limit = some n → P .limit (.scalar (.int n)))
    (hoffset : ∀ n, c.offset = some n → P .offset (.scalar (.int n)))
    (hcount : P .includeCount (.scalar (.bool true)))
    (hthreshold : ∀ w, c.threshold = some w → P .threshold (.scalar w)) :
    ∀ slot ∈ c.slots, ∀ e, slot.2 = some e → P slot.1 e := by
  have hmapped : ∀ {α : Type} {p : Parameter} {f : α → Entry} {a? : Option α},
      (∀ a, a? = some a → P p (f a)) → ∀ e, a?.map f = some e → P p e := by
    intro α p f a? h e he
    obtain ⟨a, ha, rfl⟩ := Option.map_eq_some_iff.1 he
    exact h a ha
  simp only [slots, List.forall_mem_cons, List.not_mem_nil, false_implies, implies_true, and_true]
  refine ⟨hmapped hsearch, ?_, ?_, ?_, hmapped hlimit, hmapped hoffset, ?_, hmapped hthreshold⟩
  · exact fun e he => Slots.rowFilters_eq_some he ▸ hfilters
  · exact fun e he => Slots.commaList_eq_some he ▸ hsort
  · exact fun e he => Slots.commaList_eq_some he ▸ hselect
  · intro e he
    split at he
    · cases he
      exact hcount
    · cases he

/-- Row filters stand in their own slot only. -/
theorem eq_filters_of_mem_slots {c : Contents} (slot : Parameter × Option Entry)
    (hslot : slot ∈ c.slots) (fs : List RowFilter) (h : slot.2 = some (.rowFilters fs)) :
    fs = c.filters := by
  refine forall_slots (P := fun _ e => ∀ fs, e = .rowFilters fs → fs = c.filters)
    ?_ ?_ ?_ ?_ ?_ ?_ ?_ ?_ slot hslot _ h fs rfl
  case refine_2 =>
    intro fs he
    cases he
    rfl
  all_goals nofun

def toStore (c : Contents) : Store := c.slots.toStore

/-- Row filters as one group, if there are any and a combinator is given. -/
def grouped (combinator : Option Combinator) (fs : List RowFilter) : List RowFilter :=
  match combinator with
  | none => fs
  | some c => if fs.isEmpty then [] else [.group c fs]

end Contents

namespace Options

/-! ## Readings -/

section Readings

variable {α β : Type}

/-- Reads an option, if it is given. -/
def readGiven (f : Value → Except Failure α) : Value → Except Failure (Option α)
  | .null => .ok .none
  | v => (f v).map some

/-- Reads an option, if it is given and not empty. -/
def readFilled (f : Value → Except Failure (List β)) (v : Value) : Except Failure (List β) :=
  if v.isTruthy then f v else .ok []

/-- Reads every element of an option. -/
def readEach (f : Value → Except Failure (List β)) : Value → Except Failure (List β) :=
  readFilled fun v => v.loop >>= gather f

theorem readEach_list (f : Value → Except Failure (List β)) (vs : List Value) :
    readEach f (.list vs) = gather f vs := by
  cases vs <;> rfl

end Readings

def exactTerm (v : Value) : Except Failure Value :=
  v.displayed.map fun shown => .text (.scalar '"' :: shown.text ++ [.scalar '"'])

/-- The search term, which is put between double quotes if it must match exactly. -/
def searchTerm (exact : Bool) (v : Value) : Except Failure Value :=
  if exact then exactTerm v else Slots.scalarOf .search v

def wholeOf (name : Text) : Value → Except Failure Int
  | .int n => .ok n
  | v@(.float x) =>
    match x.toInt? with
    | some n => .ok n
    | Option.none => v.refuse (.notWhole name)
  | v => v.refuse (.notInteger name)

/-- A threshold that is not documented must be displayed in a warning. -/
def checkThreshold (v : Value) : Except Failure Unit :=
  if Threshold.all.any fun t => v.equal (.text t.wire) then .ok () else v.displayed.map fun _ => ()

def thresholdOf (v : Value) : Except Failure Value :=
  checkThreshold v >>= fun _ => Slots.scalarOf .threshold v

def readAreas (o : Options) : Except Failure (List RowFilter) := do
  let circles ← readFilled (fun raw => (readCircle raw).map fun c => [c.toFilter]) o.circle
  let rects ← readFilled (fun raw => (readRect raw).map fun r => [r.toFilter]) o.rect
  pure (circles ++ rects)

def contents (o : Options) : Except Failure Contents := do
  let search ← readGiven (searchTerm o.exact.isTruthy) o.search
  let listed ← readEach (fun raw => (readFilter raw).map fun f => [f]) o.filters
  let areas ← readAreas o
  let combinator ← readGiven readCombine o.combine
  let sorts ← readEach (fun token => (readSort token).map fun s => [s]) o.sort
  let selects ← readEach readSelect o.select
  let limit ← readGiven (wholeOf "limit") o.limit
  let offset ← readGiven (wholeOf "offset") o.offset
  let threshold ← readGiven thresholdOf o.threshold
  pure ⟨search, Contents.grouped combinator (listed ++ areas), sorts, selects, limit, offset,
    o.includeCount.isTruthy, threshold⟩

/-! ## Stages -/

section Stages

variable {α β : Type} {σ : Type} {slots : Slots} {p : Parameter}

/-- An option that is written as a scalar takes the next slot. -/
theorem reached_given {f : Value → Action Store Unit} {g : Value → Except Failure α}
    {entry : α → Entry}
    (h : ∀ v, reached (f v) slots.toStore =
      (g v).map fun a => (slots.add p (some (entry a))).toStore) (v : Value) :
    reached (given f v) slots.toStore =
      (readGiven g v).map fun a => (slots.add p (a.map entry)).toStore := by
  cases v with
  | null => exact congrArg Except.ok (Slots.toStore_add_none slots p).symm
  | _ =>
    refine (h _).trans ?_
    simp only [readGiven]
    cases g _ <;> rfl

/-- An option that adds to the end of what is there. -/
theorem reached_filled {f : Value → Action Store Unit} {g : Value → Except Failure (List β)}
    {S : List β → Store} {xs : List β}
    (h : ∀ v, reached (f v) (S xs) = (g v).map fun ys => S (xs ++ ys)) (v : Value) :
    reached (filled f v) (S xs) = (readFilled g v).map fun ys => S (xs ++ ys) := by
  unfold filled readFilled
  split
  · exact h v
  · exact congrArg (fun zs => Except.ok (S zs)) (List.append_nil xs).symm

/-- An option of many values adds what each of them adds, in order. -/
theorem reached_each {f : Value → Action Store Unit} {g : Value → Except Failure (List β)}
    {S : List β → Store} (h : ∀ v xs, reached (f v) (S xs) = (g v).map fun ys => S (xs ++ ys))
    (v : Value) (xs : List β) :
    reached (each f v) (S xs) = (readEach g v).map fun ys => S (xs ++ ys) := by
  refine reached_filled (fun w => ?_) v
  rw [Action.reached_lift_bind]
  cases w.loop with
  | error e => rfl
  | ok vs => exact Action.reached_forEach h vs xs

theorem reached_addSearch (h : slots.Lacks .search) (o : Options) :
    reached o.addSearch slots.toStore =
      (readGiven (searchTerm o.exact.isTruthy) o.search).map fun w =>
        (slots.add .search (w.map .scalar)).toStore := by
  refine reached_given (fun v => ?_) o.search
  unfold searchTerm
  split
  · unfold Query.searchExact exactTerm
    have hdisplayed : reached (Action.displayed v >>= fun shown => Query.setParameter .search
          (.text (.scalar '"' :: shown.text ++ [.scalar '"']))) slots.toStore =
        v.displayed >>= fun shown => reached (Query.setParameter .search
          (.text (.scalar '"' :: shown.text ++ [.scalar '"']))) slots.toStore := by
      unfold reached
      rw [Action.effect_bind, Action.effect_displayed]
      cases v.displayed <;> rfl
    rw [hdisplayed]
    cases v.displayed with
    | error e => rfl
    | ok shown => exact Slots.reached_setParameter h _
  · exact Slots.reached_setParameter h v

theorem reached_addFilters (h : slots.Lacks .filters) (o : Options) :
    reached o.addFilters slots.toStore =
      (readEach (fun raw => (readFilter raw).map fun f => [f]) o.filters).map fun fs =>
        (slots.add .filters (Slots.rowFilters fs)).toStore := by
  have hstage := reached_each (S := fun fs => (slots.add .filters (Slots.rowFilters fs)).toStore)
    (f := fun raw => Action.lift (readFilter raw) >>= Store.addRowFilter)
    (g := fun raw => (readFilter raw).map fun f => [f])
    (fun raw fs => by
      rw [Action.reached_lift_bind]
      cases readFilter raw with
      | error e => rfl
      | ok f => exact Slots.reached_addRowFilter h fs f) o.filters []
  rw [← Slots.toStore_add_none slots .filters]
  exact hstage

/-- One area becomes one row filter. -/
theorem reached_area (h : slots.Lacks .filters) {shape : α → Value} {toFilter : α → RowFilter}
    (hshape : ∀ a, (shape a).shapeFilter? = some (toFilter a)) (r : Value → Except Failure α)
    (v : Value) (fs : List RowFilter) :
    reached (filled (fun raw => Action.lift (r raw) >>= fun a => Query.within (shape a)) v)
        (slots.add .filters (Slots.rowFilters fs)).toStore =
      (readFilled (fun raw => (r raw).map fun a => [toFilter a]) v).map fun gs =>
        (slots.add .filters (Slots.rowFilters (fs ++ gs))).toStore := by
  refine reached_filled (S := fun fs => (slots.add .filters (Slots.rowFilters fs)).toStore)
    (fun raw => ?_) v
  rw [Action.reached_lift_bind]
  cases r raw with
  | error e => rfl
  | ok a =>
    have hwithin : Query.within (shape a) = Store.addRowFilter (toFilter a) := by
      rw [Query.within, hshape]
    change reached (Query.within (shape a)) _ = _
    rw [hwithin]
    exact Slots.reached_addRowFilter h fs _

theorem reached_addAreas (h : slots.Lacks .filters) (o : Options) (fs : List RowFilter) :
    reached o.addAreas (slots.add .filters (Slots.rowFilters fs)).toStore =
      (readAreas o).map fun gs => (slots.add .filters (Slots.rowFilters (fs ++ gs))).toStore := by
  refine Action.reached_andThen (reached_area h (fun _ => rfl) readCircle o.circle fs) fun circles => ?_
  refine (reached_area h (fun _ => rfl) readRect o.rect (fs ++ circles)).trans ?_
  cases readFilled (fun raw => (readRect raw).map fun r => [r.toFilter]) o.rect with
  | error e => rfl
  | ok rects =>
    exact congrArg (fun gs => Except.ok (slots.add .filters (Slots.rowFilters gs)).toStore)
      (List.append_assoc _ _ _)

theorem reached_addGroup (h : slots.Lacks .filters) (o : Options) (fs : List RowFilter) :
    reached o.addGroup (slots.add .filters (Slots.rowFilters fs)).toStore =
      (readGiven readCombine o.combine).map fun c =>
        (slots.add .filters (Slots.rowFilters (Contents.grouped c fs))).toStore := by
  have hmode : ∀ mode, reached (do
      let c ← Action.lift (readCombine mode)
      let _ ← Store.fold c []
      pure ()) (slots.add .filters (Slots.rowFilters fs)).toStore =
      (readCombine mode).map fun c =>
        (slots.add .filters (Slots.rowFilters (Contents.grouped (some c) fs))).toStore := by
    intro mode
    rw [Action.reached_lift_bind]
    cases readCombine mode with
    | error e => rfl
    | ok c =>
      obtain ⟨f, hfold⟩ := Slots.effect_fold h fs c
      refine Action.reached_of_effect ?_
      rw [Action.effect_bind, hfold]
      rfl
  unfold addGroup
  cases o.combine with
  | null => rfl
  | _ =>
    refine (hmode _).trans ?_
    simp only [readGiven]
    cases readCombine _ <;> rfl

/-- A field and its direction go to the end of the sort orders. -/
theorem reached_sort (h : slots.Lacks .sort) (field : Text) (direction : Direction)
    (sorts : List (Text × Direction)) :
    reached (Query.sort direction (.text field))
        (slots.add .sort (Slots.commaList (Contents.sortTokens sorts))).toStore =
      .ok (slots.add .sort
        (Slots.commaList (Contents.sortTokens (sorts ++ [(field, direction)])))).toStore := by
  have hsort : effect (Query.sort direction (.text field)) =
      effect (Query.appendParameter .sort (.text (Query.sortToken field direction))) := by
    funext s
    unfold Query.sort
    rw [Action.effect_bind, Action.effect_displayed]
    rfl
  have htokens : Contents.sortTokens (sorts ++ [(field, direction)]) =
      Contents.sortTokens sorts ++
        [(Value.text (Query.sortToken field direction)).normalize] := by
    rw [Contents.sortTokens, Contents.sortTokens, List.map_append]
    rfl
  have hstep := Slots.reached_appendParameter h (Contents.sortTokens sorts)
    (v := .text (Query.sortToken field direction)) rfl
  unfold reached at hstep ⊢
  rw [hsort, htokens, hstep]

theorem reached_addSorts (h : slots.Lacks .sort) (o : Options) :
    reached o.addSorts slots.toStore =
      (readEach (fun token => (readSort token).map fun s => [s]) o.sort).map fun sorts =>
        (slots.add .sort (Slots.commaList (Contents.sortTokens sorts))).toStore := by
  have hstage := reached_each
    (S := fun sorts => (slots.add .sort (Slots.commaList (Contents.sortTokens sorts))).toStore)
    (f := fun token => do
      let s ← Action.lift (readSort token)
      Query.sort s.2 (.text s.1))
    (g := fun token => (readSort token).map fun s => [s])
    (fun token sorts => by
      rw [Action.reached_lift_bind]
      cases readSort token with
      | error e => rfl
      | ok s => exact reached_sort h s.1 s.2 sorts) o.sort []
  rw [← Slots.toStore_add_none slots .sort]
  exact hstage

/-- Names go to the end of the selection, one by one. -/
theorem reached_only (h : slots.Lacks .select) (added names : List Text) :
    reached (Query.only [.list (added.map .text)])
        (slots.add .select (Slots.commaList (names.map .text))).toStore =
      .ok (slots.add .select (Slots.commaList ((names ++ added).map .text))).toStore := by
  change reached (Action.forEach (Query.appendParameter .select) (added.map .text)) _ = _
  -- Every name that is written joins those already there.
  induction added generalizing names with
  | nil => rw [List.append_nil]; rfl
  | cons name added ih =>
    have hstep := Slots.reached_appendParameter h (names.map .text) (v := .text name) rfl
    have hnames : names.map Value.text ++ [(Value.text name).normalize] =
        (names ++ [name]).map .text := by
      rw [List.map_append]
      rfl
    rw [hnames] at hstep
    change reached (Query.appendParameter .select (.text name) >>= fun _ => _) _ = _
    rw [Action.reached_bind, hstep]
    refine (ih (names ++ [name])).trans ?_
    rw [List.append_assoc]
    rfl

theorem reached_addSelects (h : slots.Lacks .select) (o : Options) :
    reached o.addSelects slots.toStore =
      (readEach readSelect o.select).map fun names =>
        (slots.add .select (Slots.commaList (names.map .text))).toStore := by
  have hstage := reached_each
    (S := fun names : List Text =>
      (slots.add .select (Slots.commaList (names.map .text))).toStore)
    (f := fun raw => do
      let names ← Action.lift (readSelect raw)
      Query.only [.list (names.map .text)])
    (g := readSelect)
    (fun raw names => by
      rw [Action.reached_lift_bind]
      cases readSelect raw with
      | error e => rfl
      | ok added => exact reached_only h added names) o.select []
  rw [← Slots.toStore_add_none slots .select]
  exact hstage

theorem effect_wholeNumber (name : Text) (v : Value) (s : Store) :
    effect (Query.wholeNumber name v) s = (wholeOf name v, s) := by
  have hrefuse : ∀ problem, effect (Action.refuse v problem : Action Store Int) s =
      (v.refuse problem, s) := by
    intro problem
    unfold Action.refuse Value.refuse
    rw [Action.effect_bind, Action.effect_inspected]
    cases v.inspected <;> rfl
  cases v with
  | int n => rfl
  | float x =>
    simp only [Query.wholeNumber, wholeOf]
    cases x.toInt? with
    | some n => rfl
    | none => exact hrefuse _
  | _ => exact hrefuse _

/-- The largest number of rows and the number of rows to pass over. -/
theorem reached_whole (h : slots.Lacks p) (name : Text) (v : Value) :
    reached (given (fun v => do Query.setParameter p (.int (← Query.wholeNumber name v))) v)
        slots.toStore =
      (readGiven (wholeOf name) v).map fun n =>
        (slots.add p (n.map fun n => .scalar (.int n))).toStore := by
  refine reached_given (fun v => ?_) v
  unfold reached
  rw [Action.effect_bind, effect_wholeNumber]
  cases wholeOf name v with
  | error e => rfl
  | ok n => exact Slots.reached_setParameter h (.int n)

theorem reached_includeCount (h : slots.Lacks .includeCount) (v : Value) :
    reached (filled (fun _ => Query.includeRowCount (.bool true)) v) slots.toStore =
      .ok (slots.add .includeCount (if v.isTruthy then some (.scalar (.bool true)) else .none)).toStore := by
  unfold filled
  split
  · exact Slots.reached_setParameter h (.bool true)
  · exact congrArg Except.ok (Slots.toStore_add_none slots _).symm

theorem reached_addThreshold (h : slots.Lacks .threshold) (o : Options) :
    reached o.addThreshold slots.toStore =
      (readGiven thresholdOf o.threshold).map fun w =>
        (slots.add .threshold (w.map .scalar)).toStore := by
  refine reached_given (fun v => ?_) o.threshold
  have hnote : ∀ s, effect (noteThreshold v) s = (checkThreshold v, s) := by
    intro s
    unfold noteThreshold checkThreshold
    split
    · rfl
    · rw [Action.effect_bind, Action.effect_displayed]
      cases v.displayed <;> rfl
  unfold thresholdOf
  rw [Action.reached_bind, reached, hnote]
  cases checkThreshold v with
  | error e => rfl
  | ok _ => exact Slots.reached_setParameter h v

end Stages

/-! ## Building -/

/-- Writing the options reaches the query of their contents, or fails as reading them fails. -/
theorem reached_apply (o : Options) :
    reached o.apply (Slots.toStore []) = o.contents.map Contents.toStore := by
  unfold apply contents
  refine Action.reached_andThen (reached_addSearch (by simp [Slots.Lacks]) o) fun search => ?_
  refine Action.reached_andThen (reached_addFilters (by simp [Slots.Lacks, Slots.add]) o) fun listed => ?_
  refine Action.reached_andThen (reached_addAreas (by simp [Slots.Lacks, Slots.add]) o listed)
    fun areas => ?_
  refine Action.reached_andThen (reached_addGroup (by simp [Slots.Lacks, Slots.add]) o _)
    fun combinator => ?_
  refine Action.reached_andThen (reached_addSorts (by simp [Slots.Lacks, Slots.add]) o) fun sorts => ?_
  refine Action.reached_andThen (reached_addSelects (by simp [Slots.Lacks, Slots.add]) o)
    fun selects => ?_
  refine Action.reached_andThen (reached_whole (by simp [Slots.Lacks, Slots.add]) "limit" o.limit)
    fun limit => ?_
  refine Action.reached_andThen (reached_whole (by simp [Slots.Lacks, Slots.add]) "offset" o.offset)
    fun offset => ?_
  rw [Action.reached_bind, reached_includeCount (by simp [Slots.Lacks, Slots.add])]
  refine (reached_addThreshold (by simp [Slots.Lacks, Slots.add]) o).trans ?_
  cases readGiven thresholdOf o.threshold <;> rfl

/-- Building gives the query of the contents, or the failure of reading them. -/
theorem build_eq (o : Options) :
    o.build.result.map (fun _ => o.build.state) = o.contents.map Contents.toStore :=
  reached_apply o

/-- Options with contents build the query of these. -/
theorem build_of_contents {o : Options} {c : Contents} (h : o.contents = .ok c) :
    o.build.result = .ok () ∧ o.build.state = c.toStore := by
  have hbuild := build_eq o
  rw [h] at hbuild
  cases hresult : o.build.result with
  | error e =>
    rw [hresult] at hbuild
    cases hbuild
  | ok u =>
    rw [hresult] at hbuild
    exact ⟨rfl, Except.ok.inj hbuild⟩

/-- Options whose contents cannot be read have no query. -/
theorem build_of_error {o : Options} {e : Failure} (h : o.contents = .error e) :
    o.build.result = .error e := by
  have hbuild := build_eq o
  rw [h] at hbuild
  cases hresult : o.build.result with
  | error e' =>
    rw [hresult] at hbuild
    exact congrArg Except.error (Except.error.inj hbuild)
  | ok u =>
    rw [hresult] at hbuild
    cases hbuild

/-- Options that build a query have contents, and it is their query. -/
theorem exists_contents {o : Options} (h : o.build.result = .ok ()) :
    ∃ c, o.contents = .ok c ∧ o.build.state = c.toStore := by
  cases hc : o.contents with
  | error e =>
    rw [build_of_error hc] at h
    cases h
  | ok c => exact ⟨c, rfl, (build_of_contents hc).2⟩

end Options

end RowQuery
