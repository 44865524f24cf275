import Mathlib
import RowQuery.Proofs.Number.Integer
import RowQuery.Proofs.Options.Decoding
import RowQuery.Proofs.Options.Readings

/-!
# Rebuilding queries

The parameters of a query string can be given as options again: the row filters as JSON texts, the limits
as whole numbers, and everything else as it stands. Main statement: the query of these options exists and
has the same query string, whatever options the first query was built from.
-/

namespace RowQuery

open RowQuery.Action (gather)
open RowFilter (toWires)
open Json (Every Writable Finite)

set_option autoImplicit false

/-! ## Options from parameters -/

namespace Options

/-- The JSON text of a wire form, as an option. -/
def jsonOption? (w : Value) : Option Value := w.toJsonText.toOption.map .text

/-- The whole number of a decoded parameter, as an option; a missing one is null. -/
def wholeOption? : Option Value → Option Value
  | Option.none => some .null
  | some (.text t) => (Literal.integer? t).map .int
  | some _ => Option.none

/-- The options that ask for decoded parameters. The sorts are given apart: in the text of the parameter
a comma may also belong to a field. -/
def again? (ps : Parameters) (sorts : List Value) : Option Options := do
  let filters ← (((ps.get? Parameter.filters.name).bind Value.elements?).getD []).mapM jsonOption?
  let limit ← wholeOption? (ps.get? Parameter.limit.name)
  let offset ← wholeOption? (ps.get? Parameter.offset.name)
  some { none with
    search := (ps.get? Parameter.search.name).getD .null
    exact := .bool false
    limit := limit
    offset := offset
    sort := .list sorts
    select := (ps.get? Parameter.select.name).elim .null fun v => .list [v]
    filters := .list filters
    includeCount := .bool (ps.get? Parameter.includeCount.name).isSome
    threshold := (ps.get? Parameter.threshold.name).getD .null }

/-! ## Readings of what was written -/

/-- A row filter is read from the JSON text of its wire form. -/
theorem readFilter_of_isReadable {f : RowFilter} (h : f.IsReadable) :
    ∃ t, jsonOption? f.toWire = some (.text t) ∧ readFilter (.text t) = .ok f := by
  obtain ⟨j, hs, hw, hwire⟩ := RowFilter.exists_json (fun _ => ⟨trivial, trivial⟩) f h.holds
  have hfinite : f.Holds (Every Finite) :=
    RowFilter.Holds.imp (Json.Every.imp fun _ hj => hj.2) f h.holds
  have hread : Json.read (Json.render Json.wire j) = .ok j := Json.read_render hs hw
  have hfilter : RowFilter.ofWire j.toValue = .ok f :=
    hwire ▸ RowFilter.ofWire_toWire_of_canonical f hfinite h.canonical
  refine ⟨Json.render Json.wire j, ?_, ?_⟩
  · rw [jsonOption?, hwire, Json.toJsonText_toValue hw]
    rfl
  · have htext : jsonText (.text (Json.render Json.wire j)) = .ok (Json.render Json.wire j) := rfl
    simp only [readFilter, htext, bind, Except.bind, hread, hfilter]

/-- Readable row filters are read back from the JSON texts of their wire forms. -/
theorem gather_readFilter {fs : List RowFilter} (h : ∀ f ∈ fs, f.IsReadable) :
    ∃ ts, (toWires fs).mapM jsonOption? = some ts ∧
      gather (fun raw => (readFilter raw).map fun f => [f]) ts = .ok fs := by
  induction fs with
  | nil => exact ⟨[], rfl, rfl⟩
  | cons f fs ih =>
    obtain ⟨hf, hfs⟩ := List.forall_mem_cons.1 h
    obtain ⟨t, ht, hread⟩ := readFilter_of_isReadable hf
    obtain ⟨ts, hts, hrest⟩ := ih hfs
    refine ⟨.text t :: ts, ?_, ?_⟩
    · rw [toWires, List.mapM_cons, ht, hts]
      rfl
    · rw [gather, hread, hrest]
      rfl

/-- A field that holds no colon is read from its sort, with the direction. -/
theorem readSort_sortToken {field : Text} (h : CodePoint.scalar ':' ∉ field) (d : Direction) :
    readSort (.text (Query.sortToken field d)) = .ok (field, d) := by
  have hsplit : Text.splitFirst? (.scalar ':') (Query.sortToken field d) = some (field, d.wire) :=
    Text.splitFirst_append h d.wire
  have hcut : cutText "partition" (.text (Query.sortToken field d)) =
      .ok (Query.sortToken field d) := rfl
  unfold readSort
  rw [hcut]
  simp only [Bind.bind, Except.bind, hsplit, Option.getD_some]
  cases d with
  | asc => rfl
  | desc => rfl

/-- Sorts are read back from their texts, where no field holds a colon. -/
theorem gather_readSort {sorts : List (Text × Direction)}
    (h : ∀ s ∈ sorts, CodePoint.scalar ':' ∉ s.1) :
    gather (fun token => (readSort token).map fun s => [s]) (Contents.sortTokens sorts) =
      .ok sorts := by
  induction sorts with
  | nil => rfl
  | cons s sorts ih =>
    obtain ⟨hs, hsorts⟩ := List.forall_mem_cons.1 h
    have hrest := ih hsorts
    have hfirst := readSort_sortToken hs s.2
    change gather _ (.text (Query.sortToken s.1 s.2) :: Contents.sortTokens sorts) = _
    rw [gather, hfirst, hrest]
    rfl

/-- Names are read from the text that joins them by commas. -/
theorem readSelect_join {name : Text} {names : List Text} (h : ∀ n ∈ name :: names, IsName n) :
    readSelect (.text (Text.join [.scalar ','] (name :: names))) = .ok (name :: names) := by
  have hsplit := Text.split_join fun n hn => (h n hn).separator
  have htrim : (name :: names).map Text.trim = name :: names := by
    rw [List.map_congr_left fun n hn => (h n hn).trimmed, List.map_id']
  have hfilter : (name :: names).filter (fun n => !n.isEmpty) = name :: names :=
    List.filter_eq_self.2 fun n hn => by simp [(h n hn).nonempty]
  change Except.ok (((Text.split (.scalar ',') (Text.join [.scalar ','] (name :: names))).map
    Text.trim).filter fun n => !n.isEmpty) = _
  rw [hsplit, htrim, hfilter]

end Options

/-! ## Slots of contents -/

namespace Contents

open Slots (commaList rowFilters)

/-- The parameters of the slots are distinct, and their entries are of the right kinds. -/
theorem sound_slots {c : Contents} (hc : c.Read) : c.slots.Sound := by
  refine ⟨c.nodup_slots, ?_, ?_⟩
  · exact forall_slots (P := Parameter.Holds) (fun _ _ => trivial) trivial trivial trivial
      (fun n _ => ⟨n, rfl⟩) (fun n _ => ⟨n, rfl⟩) ⟨true, rfl⟩ fun _ _ => trivial
  · intro slot hslot fs he
    rw [eq_filters_of_mem_slots slot hslot fs he]
    exact RowFilter.allHold_iff.2 fun f hf => (hc.filters f hf).holds

/-! ## Parameters of contents -/

section Parameters

variable {c : Contents} {qs : Text} {p : Parameter}

theorem get?_slots (hc : c.Read) {e : Option Entry} (h : (p, e) ∈ c.slots) :
    Parameters.get? c.slots.parameters p.name = e.map Entry.decoded :=
  Slots.get?_parameters (sound_slots hc).distinct h

/-- A scalar of a query that has a query string is a text from then on. -/
theorem exists_text (hqs : c.toStore.toQueryString = .ok qs) {w : Option Value}
    (h : (p, w.map .scalar) ∈ c.slots) :
    ∃ t : Option Text, (w.map Entry.scalar).map Entry.decoded = t.map .text ∧
      (w.map Entry.scalar).map Entry.render = t.map .ok := by
  cases w with
  | none => exact ⟨none, rfl, rfl⟩
  | some w =>
    obtain ⟨t, ht, -⟩ := Store.rendered_of_toQueryString hqs _ (Slots.mem_entries h)
    have hdecoded : (Entry.scalar w).decoded = .text t := by
      unfold Entry.decoded
      dsimp only
      rw [ht]
      rfl
    exact ⟨some t, congrArg some hdecoded, congrArg some ht⟩

/-- A whole number of a query that has a query string is read back from its text. -/
theorem wholeOption?_eq (hqs : c.toStore.toQueryString = .ok qs) {n : Option Int}
    (h : (p, n.map fun n => .scalar (.int n)) ∈ c.slots) :
    Options.wholeOption? ((n.map fun n => Entry.scalar (.int n)).map Entry.decoded) =
      some (n.elim .null .int) := by
  cases n with
  | none => rfl
  | some n =>
    obtain ⟨t, ht, -⟩ := Store.rendered_of_toQueryString hqs _ (Slots.mem_entries h)
    have hint : intText n = .ok t := ht
    have hdecoded : (Entry.scalar (.int n)).decoded = .text t := by
      unfold Entry.decoded
      dsimp only
      rw [ht]
      rfl
    unfold intText at hint
    split at hint
    · cases hint
    · next hshort =>
      cases hint
      change Options.wholeOption? (some (Entry.scalar (.int n)).decoded) = _
      rw [hdecoded, Options.wholeOption?, Literal.integer?_ofInt (Nat.not_lt.1 hshort)]
      rfl

theorem decoded_names (names : List Text) :
    (Entry.commaList (names.map .text)).decoded = .text (Text.join [.scalar ','] names) := by
  unfold Entry.decoded
  dsimp only
  rw [Entry.render_texts]
  rfl

/-- Selected names are read back from the text of their parameter. -/
theorem readEach_names {names : List Text} (h : ∀ name ∈ names, Options.IsName name) :
    Options.readEach Options.readSelect
        (((commaList (names.map .text)).map Entry.decoded).elim .null fun v => .list [v]) =
      .ok names := by
  cases names with
  | nil => rfl
  | cons name names =>
    change Options.readEach Options.readSelect
      (.list [(Entry.commaList ((name :: names).map .text)).decoded]) = _
    rw [decoded_names, Options.readEach_list, gather, Options.readSelect_join h]
    exact congrArg Except.ok (List.append_nil _)

theorem elements_filters (fs : List RowFilter) :
    ((((rowFilters fs).map Entry.decoded).bind Value.elements?).getD []) = toWires fs := by
  cases fs <;> rfl

end Parameters

/-! ## Rebuilding -/

/-- The contents with the texts of their scalars in place of the scalars. -/
def withTexts (c : Contents) (search threshold : Option Text) : Contents :=
  { c with search := search.map .text, threshold := threshold.map .text }

/-- The options that ask for the contents, the scalars and the row filters given by their texts. -/
def asOptions (c : Contents) (search threshold : Option Text) (filters : List Value) : Options :=
  { Options.none with
    search := (search.map Value.text).getD .null
    exact := .bool false
    limit := c.limit.elim .null .int
    offset := c.offset.elim .null .int
    sort := .list (sortTokens c.sorts)
    select := ((commaList (c.selects.map .text)).map Entry.decoded).elim .null fun v => .list [v]
    filters := .list filters
    includeCount := .bool c.includeCount
    threshold := (threshold.map Value.text).getD .null }

section Rebuilding

variable {c : Contents} {search threshold : Option Text} {filters : List Value}

/-- What the parameters of contents ask for are these contents. -/
theorem again?_parameters {qs : Text} (hc : c.Read) (hqs : c.toStore.toQueryString = .ok qs)
    (hsearch : (c.search.map Entry.scalar).map Entry.decoded = search.map .text)
    (hthreshold : (c.threshold.map Entry.scalar).map Entry.decoded = threshold.map .text)
    (hfilters : (toWires c.filters).mapM Options.jsonOption? = some filters) :
    Options.again? c.slots.parameters (sortTokens c.sorts) =
      some (c.asOptions search threshold filters) := by
  have hlimit := wholeOption?_eq hqs (p := .limit) (n := c.limit) (by simp [slots])
  have hoffset := wholeOption?_eq hqs (p := .offset) (n := c.offset) (by simp [slots])
  have hcount : ((if c.includeCount then some (Entry.scalar (.bool true)) else none).map
      Entry.decoded).isSome = c.includeCount := by cases c.includeCount <;> rfl
  unfold Options.again?
  rw [get?_slots hc (p := .search) (e := c.search.map .scalar) (by simp [slots]),
    get?_slots hc (p := .filters) (e := rowFilters c.filters) (by simp [slots]),
    get?_slots hc (p := .select) (e := commaList (c.selects.map .text)) (by simp [slots]),
    get?_slots hc (p := .limit) (e := c.limit.map fun n => .scalar (.int n)) (by simp [slots]),
    get?_slots hc (p := .offset) (e := c.offset.map fun n => .scalar (.int n)) (by simp [slots]),
    get?_slots hc (p := .includeCount)
      (e := if c.includeCount then some (.scalar (.bool true)) else none) (by simp [slots]),
    get?_slots hc (p := .threshold) (e := c.threshold.map .scalar) (by simp [slots]),
    elements_filters, hfilters, hlimit, hoffset, hcount, hsearch, hthreshold]
  rfl

theorem readGiven_search (search : Option Text) :
    Options.readGiven (Options.searchTerm false) ((search.map Value.text).getD .null) =
      .ok (search.map .text) := by
  cases search <;> rfl

theorem readGiven_whole (name : Text) (n : Option Int) :
    Options.readGiven (Options.wholeOf name) (n.elim .null .int) = .ok n := by
  cases n <;> rfl

theorem readGiven_threshold (threshold : Option Text) :
    Options.readGiven Options.thresholdOf ((threshold.map Value.text).getD .null) =
      .ok (threshold.map .text) := by
  cases threshold with
  | none => rfl
  | some t =>
    have hcheck : Options.checkThreshold (.text t) = .ok () := by
      unfold Options.checkThreshold
      split <;> rfl
    change (Options.thresholdOf (.text t)).map some = _
    rw [Options.thresholdOf, hcheck]
    rfl

/-- The options that ask for contents are read as these contents, with texts for scalars. -/
theorem contents_asOptions (hc : c.Read) (search threshold : Option Text)
    (hfilters : gather (fun raw => (Options.readFilter raw).map fun f => [f]) filters =
      .ok c.filters) :
    (c.asOptions search threshold filters).contents = .ok (c.withTexts search threshold) := by
  let o := c.asOptions search threshold filters
  have hsearch : Options.readGiven (Options.searchTerm o.exact.isTruthy) o.search =
      .ok (search.map .text) := readGiven_search search
  have hlisted : Options.readEach (fun raw => (Options.readFilter raw).map fun f => [f]) o.filters =
      .ok c.filters := (Options.readEach_list _ filters).trans hfilters
  have hareas : Options.readAreas o = .ok [] := rfl
  have hcombine : Options.readGiven Options.readCombine o.combine = .ok none := rfl
  have hsorts : Options.readEach (fun token => (Options.readSort token).map fun s => [s]) o.sort =
      .ok c.sorts := (Options.readEach_list _ _).trans (Options.gather_readSort hc.sorts)
  have hselects : Options.readEach Options.readSelect o.select = .ok c.selects :=
    readEach_names hc.selects
  have hlimit : Options.readGiven (Options.wholeOf "limit") o.limit = .ok c.limit :=
    readGiven_whole "limit" c.limit
  have hoffset : Options.readGiven (Options.wholeOf "offset") o.offset = .ok c.offset :=
    readGiven_whole "offset" c.offset
  have hthreshold : Options.readGiven Options.thresholdOf o.threshold = .ok (threshold.map .text) :=
    readGiven_threshold threshold
  have hgrouped : grouped none (c.filters ++ []) = c.filters := List.append_nil _
  change o.contents = _
  unfold Options.contents
  rw [hsearch, hlisted, hareas, hcombine, hsorts, hselects, hlimit, hoffset, hthreshold]
  exact congrArg (fun fs => Except.ok { c.withTexts search threshold with filters := fs }) hgrouped

/-- Contents are written in the same way with the texts of their scalars. -/
theorem texts_withTexts (hsearch : (c.search.map Entry.scalar).map Entry.render = search.map .ok)
    (hthreshold : (c.threshold.map Entry.scalar).map Entry.render = threshold.map .ok) :
    (c.withTexts search threshold).slots.texts = c.slots.texts := by
  unfold Slots.texts withTexts slots
  simp only [List.map_cons, hsearch, hthreshold]
  cases search <;> cases threshold <;> rfl

end Rebuilding

/-- The options from the parameters of contents read the contents again, with texts for scalars. -/
theorem contents_again {c : Contents} {qs : Text} (hc : c.Read)
    (hqs : c.toStore.toQueryString = .ok qs) :
    ∃ (o : Options) (search threshold : Option Text),
      Options.again? c.slots.parameters (sortTokens c.sorts) = some o ∧
      o.contents = .ok (c.withTexts search threshold) ∧
      (c.withTexts search threshold).slots.texts = c.slots.texts := by
  obtain ⟨search, hsearch, hsearchText⟩ :=
    exists_text hqs (p := .search) (w := c.search) (by simp [slots])
  obtain ⟨threshold, hthreshold, hthresholdText⟩ :=
    exists_text hqs (p := .threshold) (w := c.threshold) (by simp [slots])
  obtain ⟨filters, hfilters, hgather⟩ := Options.gather_readFilter hc.filters
  exact ⟨c.asOptions search threshold filters, search, threshold,
    again?_parameters hc hqs hsearch hthreshold hfilters,
    contents_asOptions hc search threshold hgather, texts_withTexts hsearchText hthresholdText⟩

theorem listed_sort {c : Contents} (hc : c.Read) : c.toStore.listed .sort = sortTokens c.sorts := by
  have hget : c.toStore.get? (.text Parameter.sort.name) = commaList (sortTokens c.sorts) :=
    Slots.get?_toStore (sound_slots hc).distinct (by simp [slots])
  unfold Store.listed
  rw [hget]
  cases sortTokens c.sorts <;> rfl

end Contents

namespace Options

/-- A query string that was built from options is decoded, and the options that ask for what it is decoded
to have a query with the same query string. -/
theorem toQueryString_again {o : Options} {qs : Text} (hbuilt : o.build.result = .ok ())
    (hqs : o.build.state.toQueryString = .ok qs) :
    ∃ ps o', Parameters.decode qs (.text Parameter.filters.name) = .ok ps ∧
      again? ps (o.build.state.listed .sort) = some o' ∧
      o'.build.result = .ok () ∧ o'.build.state.toQueryString = .ok qs := by
  obtain ⟨c, hc, hstate⟩ := exists_contents hbuilt
  have hread := read_contents hc
  rw [hstate] at hqs ⊢
  obtain ⟨o', search, threshold, hagain, hcontents, htexts⟩ := Contents.contents_again hread hqs
  obtain ⟨hbuilt', hstate'⟩ := build_of_contents hcontents
  -- The two stores differ where a number became its text, but not in the texts of their entries.
  refine ⟨c.slots.parameters, o', ?_, ?_, hbuilt', ?_⟩
  · exact Slots.decode_of_toQueryString (Contents.sound_slots hread) hqs
  · rw [Contents.listed_sort hread]
    exact hagain
  · rw [hstate']
    exact (Slots.toQueryString_congr htexts).trans hqs

/-- Options whose texts are not those of the parameters: a blank in JSON text and around a name, a group,
and a sort that does not spell its direction as the wire does, with a comma in its field. -/
def grouping : Options :=
  { none with
    search := .ofString "pizza"
    exact := .bool true
    limit := .int 10
    sort := .list [.ofString "a,b:DESC"]
    select := .list [.ofString " a , b,,"]
    filters := .list [.ofString "\x7b\"a\": \x7b\"$gt\": -1\x7d\x7d"]
    combine := .ofString "all"
    includeCount := .bool true }

def groupingContents : Contents where
  search := some (.ofString "\"pizza\"")
  filters := [.group .and [.field "a" (some "$gt") (.int (-1))]]
  sorts := [("a,b", .desc)]
  selects := ["a", "b"]
  limit := some 10
  offset := Option.none
  includeCount := true
  threshold := Option.none

def groupingQuery : Text :=
  .ofString <| "q=%22pizza%22&filters=%5B%7B%22%24and%22%3A%5B%7B%22a%22%3A%7B%22%24gt%22%3A-1%7D%7D%5D" ++
    "%7D%5D&sort=a%2Cb%3Adesc&select=a%2Cb&limit=10&include_count=true"

theorem toQueryString_again_grouping :
    ∃ ps o', Parameters.decode groupingQuery (.text Parameter.filters.name) = .ok ps ∧
      again? ps (grouping.build.state.listed .sort) = some o' ∧
      o'.build.result = .ok () ∧ o'.build.state.toQueryString = .ok groupingQuery := by
  have hcontents : grouping.contents = .ok groupingContents := by cbv
  have hquery : groupingContents.toStore.toQueryString = .ok groupingQuery := by
    unfold groupingQuery
    cbv
  obtain ⟨hbuilt, hstate⟩ := build_of_contents hcontents
  refine toQueryString_again hbuilt ?_
  rw [hstate]
  exact hquery

end Options

end RowQuery
