import RowQuery.Proofs.Options.Decoding
import RowQuery.Proofs.Options.Readings

/-!
# Grouping the row filters of options

Options may ask for one group of all row filters. Main statement: whatever else they ask for, this is all that
the mode adds. The query is built where it was built without the mode, and its entries are the same in the same
order, with the one group in place of the row filters, if there are any.
-/

namespace RowQuery

open RowQuery.Action (gather)

set_option autoImplicit false

/-! ## Queries with one group -/

def Combinator.mode : Combinator → Text
  | and => "all"
  | or => "any"

/-- Row filters as the operands of one group; other entries stay as they are. -/
def Entry.grouped (c : Combinator) : Entry → Entry
  | rowFilters fs => rowFilters [.group c fs]
  | e => e

/-- The store with its row filters as the operands of one group in their place. -/
def Store.grouped (s : Store) (c : Combinator) : Store :=
  { s with entries := s.entries.map fun m => (m.1, m.2.grouped c) }

namespace Slots

/-- Grouping the row filters of a query groups those of one slot. -/
theorem grouped_toStore (slots : Slots) (c : Combinator) :
    slots.toStore.grouped c = toStore (slots.map fun slot => (slot.1, slot.2.map (Entry.grouped c))) := by
  have hentries : slots.entries.map (fun m => (m.1, m.2.grouped c)) =
      entries (slots.map fun slot => (slot.1, slot.2.map (Entry.grouped c))) := by
    unfold entries
    rw [List.map_filterMap, List.filterMap_map]
    refine List.filterMap_congr fun slot _ => ?_
    obtain ⟨p, e⟩ := slot
    cases e <;> rfl
  exact congrArg (Store.mk _) hentries

end Slots

namespace Contents

/-- The contents with their row filters as one group, if there are any. -/
def withGroup (contents : Contents) (c : Combinator) : Contents :=
  { contents with filters := grouped (some c) contents.filters }

/-- Only the slot of the row filters changes with a group. -/
theorem slots_withGroup (contents : Contents) (c : Combinator) :
    (contents.withGroup c).slots = contents.slots.map fun slot => (slot.1, slot.2.map (Entry.grouped c)) := by
  have hscalar : ∀ {α : Type} (f : α → Value) (a? : Option α),
      (a?.map fun a => Entry.scalar (f a)).map (Entry.grouped c) = a?.map fun a => .scalar (f a) := by
    intro α f a?
    cases a? <;> rfl
  have hlist : ∀ vs : List Value,
      (Slots.commaList vs).map (Entry.grouped c) = Slots.commaList vs := by
    intro vs
    cases vs <;> rfl
  have hcount : ∀ wanted : Bool,
      (if wanted then some (Entry.scalar (.bool true)) else none).map (Entry.grouped c) =
        if wanted then some (.scalar (.bool true)) else none := by
    intro wanted
    cases wanted <;> rfl
  have hfilters : ∀ fs : List RowFilter,
      (Slots.rowFilters fs).map (Entry.grouped c) = Slots.rowFilters (grouped (some c) fs) := by
    intro fs
    cases fs <;> rfl
  simp only [slots, withGroup, List.map_cons, List.map_nil, hscalar, hlist, hcount, hfilters]
  rfl

theorem rowFilters_toStore (contents : Contents) : contents.toStore.rowFilters = contents.filters := by
  have hget : contents.toStore.get? (.text Parameter.filters.name) = Slots.rowFilters contents.filters :=
    Slots.get?_toStore contents.nodup_slots (by simp [slots])
  have hkey : contents.toStore.rowFilterKey = Parameter.filters.name := rfl
  unfold Store.rowFilters
  rw [hkey, hget]
  cases contents.filters <;> rfl

end Contents

namespace Options

/-! ## The row filters that options give -/

/-- An option that is given and not empty is read as the row filter of an area; otherwise there is none. -/
def GivesArea {α : Type} (read : Value → Except Failure α) (toFilter : α → RowFilter) (v : Value)
    (fs : List RowFilter) : Prop :=
  if v.isTruthy then ∃ a, read v = .ok a ∧ fs = [toFilter a] else fs = []

/-- The row filters that options give before they are grouped: those that are written as JSON text in order,
then the circle, then the rectangle. -/
def GivesFilters (o : Options) (fs : List RowFilter) : Prop :=
  ∃ listed circles rects, fs = listed ++ circles ++ rects ∧
    List.Forall₂ (fun raw f => readFilter raw = .ok f)
      (if o.filters.isTruthy then o.filters.elements?.getD [] else []) listed ∧
    GivesArea readCircle Circle.toFilter o.circle circles ∧
    GivesArea readRect Rectangle.toFilter o.rect rects

theorem forall₂_gather {α β : Type} {r : α → Except Failure β} {as : List α} {bs : List β}
    (h : gather (fun a => (r a).map fun b => [b]) as = .ok bs) :
    List.Forall₂ (fun a b => r a = .ok b) as bs := by
  induction as generalizing bs with
  | nil =>
    cases h
    exact .nil
  | cons a as ih =>
    obtain ⟨first, hfirst, h⟩ := bind_eq_ok h
    obtain ⟨rest, hrest, h⟩ := bind_eq_ok h
    obtain ⟨b, hb, rfl⟩ := map_eq_ok hfirst
    cases h
    exact .cons hb (ih hrest)

theorem givesArea_of_readFilled {α : Type} {r : Value → Except Failure α} {toFilter : α → RowFilter}
    {v : Value} {fs : List RowFilter}
    (h : readFilled (fun raw => (r raw).map fun a => [toFilter a]) v = .ok fs) :
    GivesArea r toFilter v fs := by
  unfold readFilled at h
  unfold GivesArea
  split at h
  · next hv =>
    obtain ⟨a, ha, rfl⟩ := map_eq_ok h
    rw [if_pos hv]
    exact ⟨a, ha, rfl⟩
  · next hv =>
    cases h
    rw [if_neg hv]

theorem forall₂_readEach {v : Value} {fs : List RowFilter}
    (h : readEach (fun raw => (readFilter raw).map fun f => [f]) v = .ok fs) :
    List.Forall₂ (fun raw f => readFilter raw = .ok f)
      (if v.isTruthy then v.elements?.getD [] else []) fs := by
  unfold readEach readFilled at h
  split at h
  · next hv =>
    obtain ⟨vs, hvs, h⟩ := bind_eq_ok h
    have helements : v.elements? = some vs := by
      unfold Value.loop at hvs
      split at hvs
      · next he =>
        cases hvs
        exact he
      · cases hvs
    rw [if_pos hv, helements]
    exact forall₂_gather h
  · next hv =>
    cases h
    rw [if_neg hv]
    exact .nil

/-- Without a mode the row filters of the contents are those that the options give. -/
theorem Gives.filters_of_absent {o : Options} {contents : Contents} (h : o.Gives contents)
    (habsent : o.combine = .null) : ∃ listed areas,
      readEach (fun raw => (readFilter raw).map fun f => [f]) o.filters = .ok listed ∧
      readAreas o = .ok areas ∧ contents.filters = listed ++ areas := by
  obtain ⟨listed, areas, combinator, hlisted, hareas, hcombinator, hfilters⟩ := h.filters
  rw [habsent] at hcombinator
  cases hcombinator
  exact ⟨listed, areas, hlisted, hareas, hfilters⟩

/-- The row filters of contents are those of the filters, the circle and the rectangle, in order. -/
theorem Gives.givesFilters {o : Options} {contents : Contents} (h : o.Gives contents)
    (habsent : o.combine = .null) : o.GivesFilters contents.filters := by
  obtain ⟨listed, areas, hlisted, hareas, hfilters⟩ := h.filters_of_absent habsent
  obtain ⟨circles, rects, hcircles, hrects, rfl⟩ := readAreas_eq_ok hareas
  exact ⟨listed, circles, rects, by rw [hfilters, List.append_assoc], forall₂_readEach hlisted,
    givesArea_of_readFilled hcircles, givesArea_of_readFilled hrects⟩

/-! ## The mode -/

/-- The options with a mode that asks for a group. -/
def combining (o : Options) (c : Combinator) : Options := { o with combine := .text c.mode }

theorem readCombine_mode (c : Combinator) : readCombine (.text c.mode) = .ok c := by
  have hall : Value.equal (.text c.mode) (.ofString "all") = decide (c = .and) := by
    rw [Value.ofString, Parameters.equal_text]
    cases c <;> rfl
  have hany : Value.equal (.text c.mode) (.ofString "any") = decide (c = .or) := by
    rw [Value.ofString, Parameters.equal_text]
    cases c <;> rfl
  rw [readCombine, hall, hany]
  cases c <;> rfl

/-- A mode makes one group of the row filters, and changes nothing else. -/
theorem contents_combining {o : Options} {contents : Contents} (h : o.contents = .ok contents)
    (habsent : o.combine = .null) (c : Combinator) :
    (o.combining c).contents = .ok (contents.withGroup c) := by
  have hgives := gives_of_contents h
  obtain ⟨listed, areas, hlisted, hareas, hfilters⟩ := hgives.filters_of_absent habsent
  have hcombine : readGiven readCombine (o.combining c).combine = .ok (some c) := by
    change (readCombine (.text c.mode)).map some = _
    rw [readCombine_mode]
    rfl
  have hareas : readAreas (o.combining c) = .ok areas := hareas
  unfold Options.contents
  rw [hcombine, hareas]
  dsimp only [combining]
  rw [hgives.search, hlisted, hgives.sorts, hgives.selects, hgives.limit, hgives.offset,
    hgives.threshold, ← hgives.includeCount, Contents.withGroup, hfilters]
  rfl

/-- Options that are accepted without a mode are accepted with one. The query has the same entries in the same
order, but for its row filters: if there are any, they are the operands of one group. The row filters are
those that the options give, in order. -/
theorem build_combining {o : Options} (habsent : o.combine = .null) (hbuilt : o.build.result = .ok ())
    (c : Combinator) :
    let s := o.build.state
    let combined := (o.combining c).build
    combined.result = .ok () ∧ combined.state = s.grouped c ∧
      combined.state.rowFilters = (if s.rowFilters.isEmpty then [] else [.group c s.rowFilters]) ∧
      (s.rowFilters = [] → combined.state = s) ∧ o.GivesFilters s.rowFilters := by
  obtain ⟨contents, hc, hstate⟩ := exists_contents hbuilt
  obtain ⟨hcombined, hcombinedState⟩ := build_of_contents (contents_combining hc habsent c)
  intro s combined
  have hs : s = contents.toStore := hstate
  have hfilters : s.rowFilters = contents.filters := by rw [hs, Contents.rowFilters_toStore]
  refine ⟨hcombined, ?_, ?_, fun hempty => ?_, ?_⟩
  · rw [hs, Contents.toStore, Slots.grouped_toStore, ← Contents.slots_withGroup]
    exact hcombinedState
  · rw [hfilters, hcombinedState, Contents.rowFilters_toStore]
    rfl
  · have hsame : contents.withGroup c = contents := by
      rw [hfilters] at hempty
      rw [Contents.withGroup, hempty]
      exact congrArg (fun fs => { contents with filters := fs }) hempty.symm
    rw [hs, hcombinedState, hsame]
  · rw [hfilters]
    exact (gives_of_contents hc).givesFilters habsent

def nearby : Options :=
  { none with
    search := .ofString "pizza"
    limit := .int 10
    sort := .list [.ofString "name:desc"]
    filters := .list [.ofString "\x7b\"a\": 1\x7d", .ofString "\x7b\"b\": \x7b\"$gt\": 2\x7d\x7d"]
    circle := .ofString "1,2,3" }

theorem build_combining_nearby :
    let s := nearby.build.state
    let combined := (nearby.combining .or).build
    combined.result = .ok () ∧ combined.state = s.grouped .or ∧
      combined.state.rowFilters = (if s.rowFilters.isEmpty then [] else [.group .or s.rowFilters]) ∧
      (s.rowFilters = [] → combined.state = s) ∧ nearby.GivesFilters s.rowFilters := by
  have hread : nearby.contents.isOk = true := by decide +kernel
  cases hcontents : nearby.contents with
  | error e =>
    rw [hcontents] at hread
    cases hread
  | ok contents => exact build_combining rfl (build_of_contents hcontents).1 .or

end Options

end RowQuery
