import RowQuery.Proofs.Pairing
import RowQuery.Proofs.Store.Refresh
import RowQuery.Proofs.Value.Spelling

/-!
# Stores with words spelt out

Row filters, entries and stores that differ in spelling only have the same text. Main statement: the
operations of a store that take values in different spellings succeed or fail together, and they leave
stores that differ in spelling only.
-/

namespace RowQuery

open RowQuery.Action (effect Pairs)
open RowQuery.Value (SpellsBelow)

set_option autoImplicit false

/-! ## Row filters -/

namespace RowFilter

mutual

/-- The second row filter is the first one with some words in its operands spelt out. -/
inductive Spells : RowFilter → RowFilter → Prop
  | same (f : RowFilter) : Spells f f
  | field (key : Text) (operator : Option Text) {v w : Value} (h : SpellsBelow v w) :
      Spells (.field key operator v) (.field key operator w)
  | group (c : Combinator) {fs gs : List RowFilter} (h : SpellsAll fs gs) :
      Spells (.group c fs) (.group c gs)

inductive SpellsAll : List RowFilter → List RowFilter → Prop
  | nil : SpellsAll [] []
  | cons {f g : RowFilter} {fs gs : List RowFilter} (h : Spells f g) (hs : SpellsAll fs gs) :
      SpellsAll (f :: fs) (g :: gs)

end

theorem json_single (rules : Json.Leniency) (key : Text) {v w : Value}
    (h : Json.ofValue rules v = Json.ofValue rules w) :
    Json.ofValue rules (single key v) = Json.ofValue rules (single key w) := by
  have hmembers : Json.ofMembers rules [(.text key, v)] = Json.ofMembers rules [(.text key, w)] := by
    simp only [Json.ofMembers, h]
  rw [single, single, Json.ofValue, Json.ofValue, hmembers]

mutual

/-- Both spellings have the same wire data. -/
theorem Spells.json_eq (rules : Json.Leniency) : ∀ {f g : RowFilter}, Spells f g →
    Json.ofValue rules f.toWire = Json.ofValue rules g.toWire
  | _, _, .same _ => rfl
  | _, _, .field key none h => json_single rules key (h.spells.json_eq rules)
  | _, _, .field key (some _) h =>
    json_single rules key (json_single rules _ (h.spells.json_eq rules))
  | _, _, .group c h => by
    refine json_single rules c.wire ?_
    rw [Json.ofValue, Json.ofValue, h.json_eq rules]

theorem SpellsAll.json_eq (rules : Json.Leniency) : ∀ {fs gs : List RowFilter}, SpellsAll fs gs →
    Json.ofValues rules (toWires fs) = Json.ofValues rules (toWires gs)
  | _, _, .nil => rfl
  | _, _, .cons h hs => by
    rw [toWires, toWires, Json.ofValues, Json.ofValues, h.json_eq rules, hs.json_eq rules]

end

theorem SpellsAll.append : ∀ {fs gs fs' gs' : List RowFilter}, SpellsAll fs gs →
    SpellsAll fs' gs' → SpellsAll (fs ++ fs') (gs ++ gs')
  | _, _, _, _, .nil, h' => h'
  | _, _, _, _, .cons h hs, h' => .cons h (hs.append h')

theorem SpellsAll.length_eq : ∀ {fs gs : List RowFilter}, SpellsAll fs gs → fs.length = gs.length
  | _, _, .nil => rfl
  | _, _, .cons _ hs => by rw [List.length_cons, List.length_cons, hs.length_eq]

theorem SpellsAll.isEmpty {fs gs : List RowFilter} (h : SpellsAll fs gs) :
    fs.isEmpty = gs.isEmpty := by
  cases h <;> rfl

theorem SpellsAll.flatMap {α : Type} {f g : α → List RowFilter} (h : ∀ a, SpellsAll (f a) (g a))
    (as : List α) : SpellsAll (as.flatMap f) (as.flatMap g) := by
  induction as with
  | nil => exact .nil
  | cons a as ih =>
    rw [List.flatMap_cons, List.flatMap_cons]
    exact (h a).append ih

end RowFilter

/-! ## Entries and stores -/

/-- The second entry is the first one with some words in its lists spelt out. -/
inductive Entry.Spells : Entry → Entry → Prop
  | scalar {v w : Value} (h : SpellsBelow v w) : Spells (.scalar v) (.scalar w)
  | commaList {vs ws : List Value} (h : List.Forall₂ SpellsBelow vs ws) :
      Spells (.commaList vs) (.commaList ws)
  | rowFilters {fs gs : List RowFilter} (h : RowFilter.SpellsAll fs gs) :
      Spells (.rowFilters fs) (.rowFilters gs)

/-- The second store has the keys of the first one, in the same places, and entries that differ in
spelling only. -/
structure Store.Spells (s t : Store) : Prop where
  rowFilterKey : s.rowFilterKey = t.rowFilterKey
  entries : List.Forall₂ (fun m n => m.1 = n.1 ∧ Entry.Spells m.2 n.2) s.entries t.entries

/-- What is computed of elements of two lists is the same where the elements are related. -/
theorem mapM_eq_of_forall₂ {α β ε : Type} {ρ : α → α → Prop} {f : α → Except ε β}
    (hf : ∀ a b, ρ a b → f a = f b) {as bs : List α} (h : List.Forall₂ ρ as bs) :
    as.mapM f = bs.mapM f := by
  induction h with
  | nil => rfl
  | cons h _ ih => rw [List.mapM_cons, List.mapM_cons, hf _ _ h, ih]

theorem flatMap_eq_of_forall₂ {α β : Type} {ρ : α → α → Prop} {f : α → List β}
    (hf : ∀ a b, ρ a b → f a = f b) {as bs : List α} (h : List.Forall₂ ρ as bs) :
    as.flatMap f = bs.flatMap f := by
  induction h with
  | nil => rfl
  | cons h _ ih => rw [List.flatMap_cons, List.flatMap_cons, hf _ _ h, ih]

namespace Entry.Spells

variable {e e' : Entry}

theorem render (h : e.Spells e') : e.render = e'.render := by
  cases h with
  | scalar h => exact h.render
  | commaList h =>
    rw [Entry.render, Entry.render, renderCommaList, renderCommaList,
      mapM_eq_of_forall₂ (fun _ _ h => h.render) h]
  | rowFilters h =>
    rw [Entry.render, Entry.render, Value.toJsonText, Value.toJsonText, Json.ofValue, Json.ofValue,
      h.json_eq]

theorem renderedQueries (h : e.Spells e') : e.renderedQueries = e'.renderedQueries := by
  cases h with
  | scalar h => exact h.renderedQueries
  | commaList h => exact flatMap_eq_of_forall₂ (fun _ _ h => h.renderedQueries) h
  | rowFilters => rfl

theorem withQueries (f : Text → QueryHandle) (h : e.Spells e') :
    (e.withQueries f).Spells (e'.withQueries f) := by
  cases h with
  | scalar h => exact .scalar (h.withQueries f)
  | @commaList vs ws h =>
    show Entry.Spells (.commaList _) (.commaList _)
    rw [Value.allWithQueries_eq_map, Value.allWithQueries_eq_map]
    refine .commaList ?_
    rw [List.forall₂_map_left_iff, List.forall₂_map_right_iff]
    exact h.imp fun _ _ h => h.withQueries f
  | rowFilters h => exact .rowFilters h

end Entry.Spells

namespace Store

variable {s t : Store}

theorem findEntry?_spells {es es' : List (Value × Entry)}
    (h : List.Forall₂ (fun m n => m.1 = n.1 ∧ Entry.Spells m.2 n.2) es es') (key : Value) :
    findEntry? es key = none ∧ findEntry? es' key = none ∨
      ∃ e e', findEntry? es key = some e ∧ findEntry? es' key = some e' ∧ e.Spells e' := by
  induction h with
  | nil => exact .inl ⟨rfl, rfl⟩
  | @cons m n es es' h _ ih =>
    obtain ⟨k, e⟩ := m
    obtain ⟨l, e'⟩ := n
    obtain ⟨rfl, he⟩ := h
    rw [findEntry?_cons, findEntry?_cons]
    cases Value.sameKey k key with
    | true => exact .inr ⟨e, e', rfl, rfl, he⟩
    | false => exact ih

/-- Entries in two spellings go under one key in two spellings of a store. -/
theorem insertEntry_spells {es es' : List (Value × Entry)}
    (h : List.Forall₂ (fun m n => m.1 = n.1 ∧ Entry.Spells m.2 n.2) es es') (key : Value)
    {e e' : Entry} (he : e.Spells e') :
    List.Forall₂ (fun m n => m.1 = n.1 ∧ Entry.Spells m.2 n.2) (insertEntry es key e)
      (insertEntry es' key e') := by
  induction h with
  | nil => exact .cons ⟨rfl, he⟩ .nil
  | @cons m n es es' h hs ih =>
    obtain ⟨k, old⟩ := m
    obtain ⟨l, old'⟩ := n
    obtain ⟨rfl, hold⟩ := h
    rw [insertEntry, insertEntry]
    cases Value.sameKey k key with
    | true => exact .cons ⟨rfl, he⟩ hs
    | false => exact .cons ⟨rfl, hold⟩ ih

namespace Spells

theorem get? (h : s.Spells t) (key : Value) :
    s.get? key = none ∧ t.get? key = none ∨
      ∃ e e', s.get? key = some e ∧ t.get? key = some e' ∧ e.Spells e' :=
  findEntry?_spells h.entries key

theorem put (h : s.Spells t) (key : Value) {e e' : Entry} (he : e.Spells e') :
    (s.put key e).Spells (t.put key e') :=
  ⟨h.rowFilterKey, insertEntry_spells h.entries key he⟩

theorem rowFilters (h : s.Spells t) : RowFilter.SpellsAll s.rowFilters t.rowFilters := by
  unfold Store.rowFilters
  rw [h.rowFilterKey]
  rcases h.get? (.text t.rowFilterKey) with ⟨hs, ht⟩ | ⟨e, e', hs, ht, he⟩
  · rw [hs, ht]
    exact .nil
  · rw [hs, ht]
    cases he with
    | scalar | commaList => exact .nil
    | rowFilters h => exact h

theorem withQueries (f : Text → QueryHandle) (h : s.Spells t) :
    (s.withQueries f).Spells (t.withQueries f) := by
  refine ⟨h.rowFilterKey, ?_⟩
  show List.Forall₂ _ (s.entries.map _) (t.entries.map _)
  rw [List.forall₂_map_left_iff, List.forall₂_map_right_iff]
  refine h.entries.imp fun m n hmn => ⟨?_, hmn.2.withQueries f⟩
  show m.1.withQueries f = n.1.withQueries f
  rw [hmn.1]

/-- Both spellings of a store have the same query string. -/
theorem toQueryString (h : s.Spells t) : s.toQueryString = t.toQueryString := by
  have hfields : s.fields = t.fields := by
    refine mapM_eq_of_forall₂ ?_ h.entries
    rintro ⟨k, e⟩ ⟨l, e'⟩ ⟨rfl, he⟩
    show e.render.map (fun t => (k, t)) = e'.render.map fun t => (k, t)
    rw [Entry.Spells.render he]
  rw [Store.toQueryString, Store.toQueryString, hfields]

theorem serializations (h : s.Spells t) : s.serializations = t.serializations := by
  have hinner : s.entries.flatMap (fun e => e.2.renderedQueries) =
      t.entries.flatMap fun e => e.2.renderedQueries :=
    flatMap_eq_of_forall₂ (fun _ _ h => h.2.renderedQueries) h.entries
  rw [Store.serializations, Store.serializations, hinner, h.toQueryString, h.entries.length_eq,
    h.rowFilters.length_eq]

end Spells

/-! ## Operations -/

/-- Both or none are there, and they differ in spelling only. -/
def SpellsEntry (o o' : Option Entry) : Prop :=
  o = none ∧ o' = none ∨ ∃ e e', o = some e ∧ o' = some e' ∧ e.Spells e'

theorem pairs_refuse {α : Type} {ρ : α → α → Prop} (key key' v w : Value)
    (problem problem' : Shown → Shown → ArgumentProblem) :
    Pairs Spells ρ (refuse key v problem) (refuse key' w problem') :=
  .of_fails (fails_refuse _ _ _) (fails_refuse _ _ _)

theorem pairs_look (key : Value) : Pairs Spells SpellsEntry (look key) (look key) := by
  intro s t hst
  unfold look
  cases key.key with
  | error type => exact ⟨.error _ _, hst⟩
  | ok k => exact ⟨.ok (hst.get? key), hst⟩

theorem pairs_save (key : Value) {e e' : Entry} (h : e.Spells e') :
    Pairs Spells Eq (save key e) (save key e') := by
  intro s t hst
  rw [effect_save, effect_save]
  exact ⟨.ok rfl, hst.put key h⟩

theorem pairs_noteReplaced (key : Value) {o o' : Option Entry} (h : SpellsEntry o o') :
    Pairs Spells Eq (noteReplaced key o) (noteReplaced key o') := by
  have hnoted : ∀ k : EntryKind, Pairs Spells Eq
      (do
        let shown ← Action.displayed key
        Action.record [event (Text.ofString "Replacing " ++ k.name ++ Text.ofString " entry '" ++
          shown.text ++ Text.ofString "' with a scalar") []] : Action Store Unit)
      (do
        let shown ← Action.displayed key
        Action.record [event (Text.ofString "Replacing " ++ k.name ++ Text.ofString " entry '" ++
          shown.text ++ Text.ofString "' with a scalar") []]) := fun k =>
    .of_constant ((Action.constant_displayed key).bind fun _ => ⟨.ok (), fun _ => rfl⟩)
  rcases h with ⟨rfl, rfl⟩ | ⟨e, e', rfl, rfl, h⟩
  · exact .of_constant (Action.constant_pure ())
  · cases h with
    | scalar => exact .of_constant (Action.constant_pure ())
    | commaList => exact hnoted .commaList
    | rowFilters => exact hnoted .rowFilters

/-- A scalar is written in both spellings or refused in both. -/
theorem pairs_set (key : Value) {v w : Value} (h : Value.Spells v w) :
    Pairs Spells Eq (set key v) (set key w) := by
  have hkept := h.normalize
  simp only [set, hkept.isScalar, hkept.spells.isFinite]
  split
  · exact pairs_refuse _ _ _ _ _ _
  · split
    · exact pairs_refuse _ _ _ _ _ _
    · apply (pairs_look key).bind
      intro o o' ho
      apply (pairs_noteReplaced key ho).bind
      intro _ _ _
      exact pairs_save key (.scalar hkept)

theorem pairs_append (key : Value) {v w : Value} (h : Value.Spells v w) :
    Pairs Spells Eq (append key v) (append key w) := by
  have hkept := h.normalize
  simp only [append, hkept.spells.isFinite]
  split
  · exact pairs_refuse _ _ _ _ _ _
  · apply (pairs_look key).bind
    rintro o o' (⟨rfl, rfl⟩ | ⟨e, e', rfl, rfl, he⟩)
    · exact pairs_save key (.commaList (.cons hkept .nil))
    · cases he with
      | scalar => exact .of_fails (fails_conflict _ _) (fails_conflict _ _)
      | rowFilters => exact .of_fails (fails_conflict _ _) (fails_conflict _ _)
      | commaList hs => exact pairs_save key (.commaList (List.rel_append hs (.cons hkept .nil)))

theorem pairs_openRowFilters : Pairs Spells RowFilter.SpellsAll openRowFilters openRowFilters := by
  intro s t hst
  simp only [openRowFilters, Action.effect_bind, Action.effect_read, Action.andThen_ok,
    hst.rowFilterKey]
  rcases hst.get? (.text t.rowFilterKey) with ⟨hs, ht⟩ | ⟨e, e', hs, ht, he⟩
  · rw [hs, ht]
    exact ⟨.ok .nil, hst⟩
  · rw [hs, ht]
    cases he with
    | scalar | commaList => exact ⟨.error _ _, hst⟩
    | rowFilters h => exact ⟨.ok h, hst⟩

theorem pairs_saveRowFilters {fs gs : List RowFilter} (h : RowFilter.SpellsAll fs gs) :
    Pairs Spells Eq (saveRowFilters fs) (saveRowFilters gs) := by
  intro s t hst
  rw [effect_saveRowFilters, effect_saveRowFilters, putRowFilters, putRowFilters, hst.rowFilterKey]
  exact ⟨.ok rfl, hst.put _ (.rowFilters h)⟩

theorem pairs_addRowFilter {f g : RowFilter} (h : f.Spells g) :
    Pairs Spells Eq (addRowFilter f) (addRowFilter g) := by
  apply pairs_openRowFilters.bind
  intro fs gs hs
  exact pairs_saveRowFilters (hs.append (.cons h .nil))

/-- A fold makes one group of both spellings of the operands. -/
theorem pairs_fold (c : Combinator) {fs gs : List RowFilter} (h : RowFilter.SpellsAll fs gs) :
    Pairs Spells (fun _ _ => True) (fold c fs) (fold c gs) := by
  unfold fold
  apply Pairs.bind (ρ := Spells) fun s t hst => ⟨.ok hst, hst⟩
  intro s t hst
  have hoperands := hst.rowFilters.append h
  dsimp only
  rw [hoperands.isEmpty]
  split
  · exact fun s t hst => ⟨.ok trivial, hst⟩
  · apply pairs_openRowFilters.bind
    intro _ _ _
    apply (pairs_saveRowFilters (.cons (.group c hoperands) .nil)).bind
    intro _ _ _
    exact fun s t hst => ⟨.ok trivial, hst⟩

end Store

end RowQuery
