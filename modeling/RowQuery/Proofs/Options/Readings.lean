import RowQuery.Proofs.Filter.Canonical
import RowQuery.Proofs.Filter.Construction
import RowQuery.Proofs.Json.Atoms
import RowQuery.Proofs.Json.Conditions
import RowQuery.Proofs.Options.Contents
import RowQuery.Proofs.Text.Pieces

/-!
# What the readings of options give

A row filter that was read from JSON text, or made from an area, is read back from its own wire form. No
field of a sort holds the colon that ends it, and no selected name holds a comma or a blank at its ends.
So what stands in the contents of options can be told apart in the texts that it becomes.
-/

namespace RowQuery

open RowQuery.Action (gather)
open RowFilter (AllHold AllCanonical)
open Json (Every EveryItem Writable Finite Short toValues)

set_option autoImplicit false

/-! ## Row filters -/

namespace RowFilter

theorem allHold_iff {p : Json → Prop} {fs : List RowFilter} :
    AllHold p fs ↔ ∀ f ∈ fs, f.Holds p := by
  induction fs with
  | nil => simp [AllHold]
  | cons f fs ih => simp [AllHold, ih]

theorem allCanonical_iff {fs : List RowFilter} : AllCanonical fs ↔ ∀ f ∈ fs, f.IsCanonical := by
  induction fs with
  | nil => simp [AllCanonical]
  | cons f fs ih => simp [AllCanonical, ih]

mutual

theorem Holds.imp {p q : Json → Prop} (hpq : ∀ j, p j → q j) : ∀ f : RowFilter, f.Holds p → f.Holds q
  | field .., h => by
    obtain ⟨j, hs, hj, rfl⟩ := h
    exact ⟨j, hs, hpq j hj, rfl⟩
  | group _ fs, h => ⟨h.1, AllHold.imp hpq fs h.2⟩

theorem AllHold.imp {p q : Json → Prop} (hpq : ∀ j, p j → q j) :
    ∀ fs : List RowFilter, AllHold p fs → AllHold q fs
  | [], _ => trivial
  | f :: fs, h => ⟨Holds.imp hpq f h.1, AllHold.imp hpq fs h.2⟩

end

/-- A row filter that the JSON text of its wire form is read as. -/
structure IsReadable (f : RowFilter) : Prop where
  holds : f.Holds (Every Writable)
  canonical : f.IsCanonical

theorem holds_ofMember (k : Text) {j : Json} (hs : j.Settled) (hw : j.Every Writable) :
    (ofMember k j).Holds (Every Writable) := by
  unfold ofMember
  split
  · split
    · exact ⟨_, hs.2.1, hw.2.1, rfl⟩
    · exact ⟨_, hs, hw, rfl⟩
  · exact ⟨_, hs, hw, rfl⟩

mutual

/-- What is read from short data can be written again. -/
theorem holds_of_ofWire : ∀ (j : Json) (f : RowFilter), j.Settled → j.Every Short →
    ofWire j.toValue = .ok f → f.Holds (Every Writable)
  | j, f, hs, hshort, h => by
    rcases ofWire_cases hs h with ⟨k, i, rfl, hf, -, rfl⟩ | ⟨c, i, is, fs, rfl, hfs, rfl⟩
    · exact holds_ofMember k hs.2.1 (Json.writable_of_short hshort.2.1 hf)
    · refine ⟨?_, allHold_of_ofWires (i :: is) fs hs.2.1 hshort.2.1 hfs⟩
      rintro rfl
      obtain ⟨g, gs, -, -, hnil⟩ := ofWires_cons_ok hfs
      cases hnil

theorem allHold_of_ofWires : ∀ (js : List Json) (fs : List RowFilter), Json.SettledItems js →
    EveryItem Short js → ofWires (toValues js) = .ok fs → AllHold (Every Writable) fs
  | [], fs, _, _, h => by
    cases h
    trivial
  | j :: js, fs, hs, hshort, h => by
    obtain ⟨g, gs, hg, hgs, rfl⟩ := ofWires_cons_ok h
    exact ⟨holds_of_ofWire j g hs.1 hshort.1 hg, allHold_of_ofWires js gs hs.2 hshort.2 hgs⟩

end

theorem IsReadable.group {fs : List RowFilter} (hne : fs ≠ []) (h : ∀ f ∈ fs, f.IsReadable)
    (c : Combinator) : (RowFilter.group c fs).IsReadable where
  holds := ⟨hne, allHold_iff.2 fun f hf => (h f hf).holds⟩
  canonical := allCanonical_iff.2 fun f hf => (h f hf).canonical

end RowFilter

namespace Options

/-- The row filter of a JSON text comes from the data of the text. -/
theorem readFilter_eq_ok {raw : Value} {f : RowFilter} (h : readFilter raw = .ok f) :
    ∃ t j, jsonText raw = .ok t ∧ Json.read t = .ok j ∧ RowFilter.ofWire j.toValue = .ok f := by
  obtain ⟨t, ht, h⟩ := bind_eq_ok h
  refine ⟨t, ?_⟩
  split at h
  · cases h
  · next j hj => exact ⟨j, ht, hj, h⟩

/-- A row filter that an option gives is read from its own JSON text. -/
theorem isReadable_of_readFilter {raw : Value} {f : RowFilter} (h : readFilter raw = .ok f) :
    f.IsReadable := by
  obtain ⟨t, j, -, hj, hf⟩ := readFilter_eq_ok h
  have hs := Json.settled_read hj
  exact ⟨RowFilter.holds_of_ofWire j f hs (Json.short_read hj) hf,
    RowFilter.isCanonical_of_ofWire j f hs hf⟩

/-! ## Areas -/

/-- A number that passes its check together with another condition is kept. -/
theorem eq_of_checked {n m : Number} {within : Bool} {refused : Except Failure Number}
    (hrefused : refused ≠ .ok m)
    (h : (do if (← n.checkFinite) && within then pure n else refused) = .ok m) : m = n := by
  obtain ⟨finite, -, h⟩ := bind_eq_ok h
  have hif : (if finite && within then Except.ok n else refused) = .ok m := h
  split at hif
  · exact (Except.ok.inj hif).symm
  · exact absurd hif hrefused

theorem checkCoordinate_float {name : Text} {bound : Nat} {x : Binary64} {n : Number}
    (h : checkCoordinate name bound (.float x) = .ok n) : n = .float x :=
  eq_of_checked (RowFilter.refuse_ne_ok _ _ _) h

theorem checkMeters_float {x : Binary64} {n : Number} (h : checkMeters (.float x) = .ok n) :
    n = .float x :=
  eq_of_checked (RowFilter.refuse_ne_ok _ _ _) h

/-- The numbers of an option are double precision numbers. -/
theorem readNumbers_eq_ok {option : Text} {count : Nat} {raw : Value} {vs : List Value}
    (h : readNumbers option count raw = .ok vs) : ∃ xs : List Binary64, vs = xs.map .float := by
  obtain ⟨parts, -, h⟩ := bind_eq_ok h
  split at h
  · obtain ⟨shown, -, h⟩ := bind_eq_ok h
    cases h
  · split at h
    · next xs _ =>
      cases h
      exact ⟨xs, rfl⟩
    · obtain ⟨shown, -, h⟩ := bind_eq_ok h
      cases h

theorem geoKey_ne (c : Combinator) : geoKey ≠ c.wire := by
  cases c <;> decide

/-- The row filter of an area is read back: its operator is marked and its numbers are finite. -/
theorem isReadable_geo {w : GeoWord} (hw : RowFilter.IsMarked w.wire) {j : Json} (hs : j.Settled)
    (hshort : j.Every Short) (hf : j.toValue.isFinite = true) :
    (RowFilter.field geoKey (some w.wire) j.toValue).IsReadable :=
  ⟨⟨j, hs, Json.writable_of_short hshort hf, rfl⟩, geoKey_ne, hw⟩

/-- The row filter of a circle is read from its own JSON text. -/
theorem isReadable_of_readCircle {raw : Value} {c : Circle} (h : readCircle raw = .ok c) :
    c.toFilter.IsReadable := by
  obtain ⟨vs, hvs, h⟩ := bind_eq_ok h
  obtain ⟨xs, rfl⟩ := readNumbers_eq_ok hvs
  match xs with
  | [lat, lon, meters] =>
    have hvalid := RowFilter.valid_of_makeCircle h
    obtain ⟨a, ha, h⟩ := bind_eq_ok h
    obtain ⟨b, hb, h⟩ := bind_eq_ok h
    obtain ⟨m, hm, h⟩ := bind_eq_ok h
    cases h
    cases checkCoordinate_float ha
    cases checkCoordinate_float hb
    cases checkMeters_float hm
    refine isReadable_geo (w := .circle) (j := .object [(GeoWord.center.wire,
      .array [.float lat, .float lon]), (GeoWord.meters.wire, .float meters)]) rfl ?_ ?_ hvalid
    · have hdistinct : GeoWord.meters.wire ≠ GeoWord.center.wire := by decide
      exact ⟨List.forall_mem_singleton.2 hdistinct, ⟨trivial, trivial, trivial⟩, nofun, trivial,
        trivial⟩
    · exact ⟨trivial, ⟨trivial, trivial, trivial⟩, trivial, trivial, trivial⟩
  | [] | [_] | [_, _] | _ :: _ :: _ :: _ :: _ => cases h

theorem isReadable_of_readRect {raw : Value} {r : Rectangle} (h : readRect raw = .ok r) :
    r.toFilter.IsReadable := by
  obtain ⟨vs, hvs, h⟩ := bind_eq_ok h
  obtain ⟨xs, rfl⟩ := readNumbers_eq_ok hvs
  match xs with
  | [top, left, bottom, right] =>
    have hvalid := RowFilter.valid_of_makeRectangle h
    obtain ⟨a, ha, h⟩ := bind_eq_ok h
    obtain ⟨b, hb, h⟩ := bind_eq_ok h
    obtain ⟨c, hc, h⟩ := bind_eq_ok h
    obtain ⟨d, hd, h⟩ := bind_eq_ok h
    cases h
    cases checkCoordinate_float ha
    cases checkCoordinate_float hb
    cases checkCoordinate_float hc
    cases checkCoordinate_float hd
    refine isReadable_geo (w := .rect) (j := .array [.array [.float top, .float left],
      .array [.float bottom, .float right]]) rfl ?_ ?_ hvalid
    · exact ⟨⟨trivial, trivial, trivial⟩, ⟨trivial, trivial, trivial⟩, trivial⟩
    · exact ⟨⟨trivial, trivial, trivial⟩, ⟨trivial, trivial, trivial⟩, trivial⟩
  | [] | [_] | [_, _] | [_, _, _] | _ :: _ :: _ :: _ :: _ :: _ => cases h

/-! ## Texts in pieces -/

/-- What no comma list changes when it is cut at its commas: a name without commas and without blanks
at its ends, which is not empty. -/
structure IsName (name : Text) : Prop where
  nonempty : name ≠ []
  trimmed : name.trim = name
  separator : CodePoint.scalar ',' ∉ name

theorem isName_of_readSelect {raw : Value} {names : List Text} (h : readSelect raw = .ok names) :
    ∀ name ∈ names, IsName name := by
  obtain ⟨all, hall, rfl⟩ := map_eq_ok h
  obtain ⟨t, -, rfl⟩ := map_eq_ok hall
  intro name hname
  obtain ⟨hmem, hne⟩ := List.mem_filter.1 hname
  obtain ⟨piece, hpiece, rfl⟩ := List.mem_map.1 hmem
  refine ⟨by simpa using hne, Text.trimWhile_trimWhile _ _, fun hc => ?_⟩
  exact Text.notMem_of_mem_split piece hpiece (Text.mem_of_mem_trim _ hc)

/-- The field of a sort ends at the first colon. -/
theorem notMem_of_readSort {token : Value} {s : Text × Direction} (h : readSort token = .ok s) :
    CodePoint.scalar ':' ∉ s.1 := by
  obtain ⟨t, -, h⟩ := bind_eq_ok h
  have hfield : .scalar ':' ∉ ((t.splitFirst? (.scalar ':')).getD (t, [])).1 :=
    Text.notMem_of_splitFirst
  generalize (t.splitFirst? (.scalar ':')).getD (t, []) = split at h hfield
  dsimp only at h
  split at h
  · cases h
    exact hfield
  · split at h
    · cases h
      exact hfield
    · cases h

/-! ## Contents -/

section Members

variable {α β γ : Type} {P : β → Prop}

theorem forall_gather {g : γ → Except Failure (List β)}
    (hg : ∀ c ys, g c = .ok ys → ∀ y ∈ ys, P y) {cs : List γ} {ys : List β}
    (h : gather g cs = .ok ys) : ∀ y ∈ ys, P y := by
  induction cs generalizing ys with
  | nil =>
    cases h
    exact nofun
  | cons c cs ih =>
    obtain ⟨first, hfirst, h⟩ := bind_eq_ok h
    obtain ⟨rest, hrest, h⟩ := bind_eq_ok h
    cases h
    exact List.forall_mem_append.2 ⟨hg c first hfirst, ih hrest⟩

theorem forall_readFilled {g : Value → Except Failure (List β)}
    (hg : ∀ v ys, g v = .ok ys → ∀ y ∈ ys, P y) {v : Value} {ys : List β}
    (h : readFilled g v = .ok ys) : ∀ y ∈ ys, P y := by
  unfold readFilled at h
  split at h
  · exact hg v ys h
  · cases h
    exact nofun

theorem forall_readEach {g : Value → Except Failure (List β)}
    (hg : ∀ v ys, g v = .ok ys → ∀ y ∈ ys, P y) {v : Value} {ys : List β}
    (h : readEach g v = .ok ys) : ∀ y ∈ ys, P y := by
  refine forall_readFilled (fun w zs hzs => ?_) h
  obtain ⟨vs, -, hvs⟩ := bind_eq_ok hzs
  exact forall_gather hg hvs

/-- What holds of everything that is read holds of the one thing that is read. -/
theorem forall_singleton {r : Value → Except Failure α} {f : α → β}
    (hr : ∀ v a, r v = .ok a → P (f a)) (v : Value) (ys : List β)
    (h : ((r v).map fun a => [f a]) = .ok ys) : ∀ y ∈ ys, P y := by
  obtain ⟨a, ha, rfl⟩ := map_eq_ok h
  exact List.forall_mem_singleton.2 (hr v a ha)

end Members

end Options

/-- Contents as the readings give them. -/
structure Contents.Read (c : Contents) : Prop where
  filters : ∀ f ∈ c.filters, f.IsReadable
  sorts : ∀ s ∈ c.sorts, CodePoint.scalar ':' ∉ s.1
  selects : ∀ name ∈ c.selects, Options.IsName name

namespace Options

theorem isReadable_grouped {combinator : Option Combinator} {fs : List RowFilter}
    (h : ∀ f ∈ fs, f.IsReadable) : ∀ f ∈ Contents.grouped combinator fs, f.IsReadable := by
  unfold Contents.grouped
  split
  · exact h
  · next c =>
    split
    · exact nofun
    · next hne => exact List.forall_mem_singleton.2 (.group (by simpa using hne) h c)

theorem readAreas_eq_ok {o : Options} {fs : List RowFilter} (h : readAreas o = .ok fs) :
    ∃ circles rects,
      readFilled (fun raw => (readCircle raw).map fun c => [c.toFilter]) o.circle = .ok circles ∧
      readFilled (fun raw => (readRect raw).map fun r => [r.toFilter]) o.rect = .ok rects ∧
      fs = circles ++ rects := by
  obtain ⟨circles, hcircles, h⟩ := bind_eq_ok h
  obtain ⟨rects, hrects, h⟩ := bind_eq_ok h
  cases h
  exact ⟨circles, rects, hcircles, hrects, rfl⟩

/-- Every part of the contents is what its options are read as. -/
structure Gives (o : Options) (c : Contents) : Prop where
  search : readGiven (searchTerm o.exact.isTruthy) o.search = .ok c.search
  filters : ∃ listed areas combinator,
    readEach (fun raw => (readFilter raw).map fun f => [f]) o.filters = .ok listed ∧
    readAreas o = .ok areas ∧ readGiven readCombine o.combine = .ok combinator ∧
    c.filters = Contents.grouped combinator (listed ++ areas)
  sorts : readEach (fun token => (readSort token).map fun s => [s]) o.sort = .ok c.sorts
  selects : readEach readSelect o.select = .ok c.selects
  limit : readGiven (wholeOf "limit") o.limit = .ok c.limit
  offset : readGiven (wholeOf "offset") o.offset = .ok c.offset
  includeCount : c.includeCount = o.includeCount.isTruthy
  threshold : readGiven thresholdOf o.threshold = .ok c.threshold

theorem gives_of_contents {o : Options} {c : Contents} (h : o.contents = .ok c) : o.Gives c := by
  obtain ⟨search, hsearch, h⟩ := bind_eq_ok h
  obtain ⟨listed, hlisted, h⟩ := bind_eq_ok h
  obtain ⟨areas, hareas, h⟩ := bind_eq_ok h
  obtain ⟨combinator, hcombinator, h⟩ := bind_eq_ok h
  obtain ⟨sorts, hsorts, h⟩ := bind_eq_ok h
  obtain ⟨selects, hselects, h⟩ := bind_eq_ok h
  obtain ⟨limit, hlimit, h⟩ := bind_eq_ok h
  obtain ⟨offset, hoffset, h⟩ := bind_eq_ok h
  obtain ⟨threshold, hthreshold, h⟩ := bind_eq_ok h
  cases h
  exact ⟨hsearch, ⟨listed, areas, combinator, hlisted, hareas, hcombinator, rfl⟩, hsorts, hselects,
    hlimit, hoffset, rfl, hthreshold⟩

/-- Contents that options give are as the readings give them. -/
theorem read_contents {o : Options} {c : Contents} (h : o.contents = .ok c) : c.Read := by
  have hgives := gives_of_contents h
  obtain ⟨listed, areas, combinator, hlisted, hareas, -, hfilters⟩ := hgives.filters
  obtain ⟨circles, rects, hcircles, hrects, rfl⟩ := readAreas_eq_ok hareas
  refine ⟨hfilters ▸ isReadable_grouped ?_, ?_, ?_⟩
  · have hlisted := forall_readEach (forall_singleton fun _ _ => isReadable_of_readFilter) hlisted
    have hcircles := forall_readFilled (forall_singleton fun _ _ => isReadable_of_readCircle) hcircles
    have hrects := forall_readFilled (forall_singleton fun _ _ => isReadable_of_readRect) hrects
    exact List.forall_mem_append.2 ⟨hlisted, List.forall_mem_append.2 ⟨hcircles, hrects⟩⟩
  · exact forall_readEach (P := fun s : Text × Direction => CodePoint.scalar ':' ∉ s.1)
      (forall_singleton fun _ _ => notMem_of_readSort) hgives.sorts
  · exact forall_readEach (fun _ _ => isName_of_readSelect) hgives.selects

end Options

end RowQuery
