import Mathlib
import RowQuery.Proofs.Options.Decoding
import RowQuery.Proofs.Options.Failures

/-!
# Query strings of options

A query string is encoded as UTF-8, which has no form for a lone surrogate half. The texts of options
hold none, but an escape in the JSON text of a row filter may stand for one. Main statement: this is all
that keeps a query from having a query string once it is built from options of the declared types.
-/

namespace RowQuery

open RowQuery.Action (gather)
open RowFilter (toWires AllHold)
open Json (Every EveryItem Writable toValues)

set_option autoImplicit false

namespace Options

/-! ## What is read holds no lone surrogate half -/

theorem isPlainText_searchTerm {exact : Bool} {v w : Value} (hv : v.IsPlainText)
    (h : searchTerm exact v = .ok w) : w.IsPlainText := by
  obtain ⟨t, rfl, ht⟩ := hv
  cases exact with
  | false =>
    cases h
    exact ⟨t, rfl, ht⟩
  | true =>
    cases h
    exact ⟨_, rfl, by simp [ht]⟩

theorem isPlainText_thresholdOf {v w : Value} (hv : v.IsPlainText) (h : thresholdOf v = .ok w) :
    w.IsPlainText := by
  obtain ⟨t, rfl, ht⟩ := hv
  obtain ⟨-, -, h⟩ := bind_eq_ok h
  cases h
  exact ⟨t, rfl, ht⟩

theorem isWellFormed_of_readSort {v : Value} {s : Text × Direction} (hv : v.IsPlainText)
    (h : readSort v = .ok s) : s.1.isWellFormed = true := by
  obtain ⟨t, rfl, ht⟩ := hv
  have hfield : ((t.splitFirst? (.scalar ':')).getD (t, [])).1.isWellFormed = true := by
    cases hsplit : t.splitFirst? (.scalar ':') with
    | none => exact ht
    | some p => exact (Text.isWellFormed_of_splitFirst ht hsplit).1
  obtain ⟨t', ht', h⟩ := bind_eq_ok h
  cases ht'
  generalize (t.splitFirst? (.scalar ':')).getD (t, []) = split at h hfield
  dsimp only at h
  split at h
  · cases h
    exact hfield
  · split at h
    · cases h
      exact hfield
    · cases h

theorem isWellFormed_of_readSelect {v : Value} {names : List Text} (hv : v.IsPlainText)
    (h : readSelect v = .ok names) : ∀ name ∈ names, name.isWellFormed = true := by
  obtain ⟨t, rfl, ht⟩ := hv
  cases h
  intro name hname
  obtain ⟨piece, hpiece, rfl⟩ := List.mem_map.1 (List.mem_filter.1 hname).1
  exact Text.isWellFormed_trim (Text.isWellFormed_of_mem_split ht piece hpiece)

theorem short_of_wholeOf {name : Text} {v : Value} {n : Int} (hv : IsWhole v)
    (h : readGiven (wholeOf name) v = .ok (some n)) :
    Decimal.length n.natAbs ≤ Literal.maxIntDigits := by
  rcases hv with rfl | ⟨m, rfl, hm⟩
  · cases h
  · cases h
    exact hm

theorem isPlainText_of_readGiven {f : Value → Except Failure Value} {v : Value} {w : Option Value}
    (hv : IsText v) (hf : ∀ u x : Value, u.IsPlainText → f u = .ok x → x.IsPlainText)
    (h : readGiven f v = .ok w) : ∀ x, w = some x → x.IsPlainText := by
  rintro x rfl
  rcases hv with rfl | ⟨t, rfl, ht⟩
  · cases h
  · obtain ⟨y, hy, he⟩ := map_eq_ok h
    cases he
    exact hf _ _ ⟨t, rfl, ht⟩ hy

theorem forall_readEach_texts {β : Type} {P : β → Prop} {g : Value → Except Failure (List β)}
    {v : Value} {ys : List β} (hv : AreTexts v)
    (hg : ∀ (w : Value) ys, w.IsPlainText → g w = .ok ys → ∀ y ∈ ys, P y)
    (h : readEach g v = .ok ys) : ∀ y ∈ ys, P y := by
  rcases hv with rfl | ⟨vs, rfl, hvs⟩
  · cases h
    exact nofun
  · rw [readEach_list] at h
    induction vs generalizing ys with
    | nil =>
      cases h
      exact nofun
    | cons w vs ih =>
      obtain ⟨hw, hvs⟩ := List.forall_mem_cons.1 hvs
      obtain ⟨first, hfirst, h⟩ := bind_eq_ok h
      obtain ⟨rest, hrest, h⟩ := bind_eq_ok h
      cases h
      exact List.forall_mem_append.2 ⟨hg w first hw hfirst, ih hvs hrest⟩

end Options

/-- The texts in the contents, those in the row filters apart, hold no lone surrogate half, and the whole
numbers have a text. -/
structure Contents.Plain (c : Contents) : Prop where
  search : ∀ w, c.search = some w → w.IsPlainText
  sorts : ∀ s ∈ c.sorts, s.1.isWellFormed = true
  selects : ∀ name ∈ c.selects, name.isWellFormed = true
  limit : ∀ n, c.limit = some n → Decimal.length n.natAbs ≤ Literal.maxIntDigits
  offset : ∀ n, c.offset = some n → Decimal.length n.natAbs ≤ Literal.maxIntDigits
  threshold : ∀ w, c.threshold = some w → w.IsPlainText

/-- Options of the declared types have contents without lone surrogate halves, row filters apart. -/
theorem Options.plain_contents {o : Options} (ho : o.Declared) {c : Contents}
    (h : o.contents = .ok c) : c.Plain := by
  have hgives := gives_of_contents h
  refine ⟨?_, ?_, ?_, ?_, ?_, ?_⟩
  · exact isPlainText_of_readGiven ho.search (fun _ _ => isPlainText_searchTerm) hgives.search
  · refine forall_readEach_texts ho.sort (fun w ys hw hys => ?_) hgives.sorts
    obtain ⟨s, hs, rfl⟩ := map_eq_ok hys
    exact List.forall_mem_singleton.2 (isWellFormed_of_readSort hw hs)
  · exact forall_readEach_texts ho.select (fun _ _ hw => isWellFormed_of_readSelect hw) hgives.selects
  · exact fun n hn => short_of_wholeOf ho.limit (hn ▸ hgives.limit)
  · exact fun n hn => short_of_wholeOf ho.offset (hn ▸ hgives.offset)
  · exact isPlainText_of_readGiven ho.threshold (fun _ _ => isPlainText_thresholdOf) hgives.threshold

/-! ## Texts of the entries -/

/-- Only a row filter whose wire form holds a lone surrogate half can be in the way of the text. -/
def Entry.HasWellFormedFilters (e : Entry) : Prop :=
  ∀ fs, e = .rowFilters fs → ∀ f ∈ fs, f.toWire.isWellFormed = true

/-- The entry has a text, in which only a row filter can put a lone surrogate half. -/
def Entry.IsSound (e : Entry) : Prop :=
  ∃ t, e.render = .ok t ∧ (t.isWellFormed = true ↔ e.HasWellFormedFilters)

namespace RowFilter

theorem isWellFormed_single {key : Text} (hk : key.isWellFormed = true) (v : Value) :
    (single key v).isWellFormed = v.isWellFormed := by
  simp [single, Value.isWellFormed, Value.allMembersWellFormed, hk]

theorem allWellFormed_toWires {fs : List RowFilter} :
    Value.allWellFormed (toWires fs) = true ↔ ∀ f ∈ fs, f.toWire.isWellFormed = true := by
  induction fs with
  | nil => simp [toWires, Value.allWellFormed]
  | cons f fs ih => simp [toWires, Value.allWellFormed, ih]

end RowFilter

namespace Entry

theorem IsSound.of_isWellFormed {e : Entry} {t : Text} (hkind : e.kind ≠ .rowFilters)
    (ht : e.render = .ok t) (hwell : t.isWellFormed = true) : e.IsSound := by
  refine ⟨t, ht, fun _ => ?_, fun _ => hwell⟩
  rintro fs rfl
  exact absurd rfl hkind

theorem isSound_scalar {w : Value} (hw : w.IsPlainText) : (scalar w).IsSound := by
  obtain ⟨t, rfl, ht⟩ := hw
  exact .of_isWellFormed nofun rfl ht

theorem isSound_whole {n : Int} (hn : Decimal.length n.natAbs ≤ Literal.maxIntDigits) :
    (scalar (.int n)).IsSound :=
  .of_isWellFormed nofun (intText_plain hn) (Text.isWellFormed_ofInt n)

theorem isSound_texts {ts : List Text} (h : ∀ t ∈ ts, t.isWellFormed = true) :
    (commaList (ts.map .text)).IsSound :=
  .of_isWellFormed nofun (render_texts ts) (Text.isWellFormed_join rfl h)

theorem isSound_rowFilters {fs : List RowFilter} (h : AllHold (Json.Every Writable) fs) :
    (rowFilters fs).IsSound := by
  obtain ⟨js, -, hw, hwire⟩ := RowFilter.exists_jsons (fun _ => ⟨trivial, trivial⟩) fs h
  have hcondition : (rowFilters fs).HasWellFormedFilters ↔ EveryItem Json.WellFormedAtom js := by
    rw [← Json.allWellFormed_toValues, ← hwire, RowFilter.allWellFormed_toWires]
    refine ⟨fun h => h fs rfl, fun h gs hgs => ?_⟩
    cases hgs
    exact h
  refine ⟨Json.render Json.wire (.array js), ?_, ?_⟩
  · change (Value.list (toWires fs)).toJsonText = _
    rw [hwire]
    exact Json.toJsonText_toValue (j := .array js) hw
  · rw [hcondition]
    exact Json.isWellFormed_renderAt Json.isVerbatim_wire 0 (.array js)

end Entry

/-! ## Query strings -/

namespace Form

/-- Fields whose names are texts are encoded, unless a lone surrogate half is in the way. -/
theorem failsOnly_encode {fields : List (Value × Text)} (h : ∀ f ∈ fields, f.1.IsPlainText) :
    FailsOnly (fun e => e.kind = .encoding) (encode fields) := by
  have htext : ∀ t : Text, FailsOnly (fun e => e.kind = .encoding) (encodeText t) := by
    intro t
    refine FailsOnly.bind ?_ fun cs _ => .of_ok _
    unfold Percent.characters
    split
    · exact .of_ok _
    · exact .of_error rfl
  refine FailsOnly.bind (.mapM fun f hf => ?_) fun encoded _ => .of_ok _
  obtain ⟨v, t⟩ := f
  obtain ⟨name, rfl, -⟩ := h _ hf
  apply (htext name).bind
  intro encodedName _
  apply (htext t).bind
  intro encodedText _
  exact .of_ok _

end Form

namespace Store

/-- A store of sound entries under plain texts has a query string unless a row filter holds a lone surrogate
half, and no other failure is possible. -/
theorem toQueryString_of_isSound {s : Store} (hkeys : ∀ m ∈ s.entries, m.1.IsPlainText)
    (h : ∀ m ∈ s.entries, m.2.IsSound) :
    ((∃ qs, s.toQueryString = .ok qs) ↔ ∀ m ∈ s.entries, m.2.HasWellFormedFilters) ∧
      FailsOnly (fun e => e.kind = .encoding) s.toQueryString := by
  refine ⟨⟨?_, ?_⟩, ?_⟩
  · rintro ⟨qs, hqs⟩ m hm
    obtain ⟨t, ht, hiff⟩ := h m hm
    obtain ⟨t', ht', hwell⟩ := rendered_of_toQueryString hqs m hm
    cases ht.symm.trans ht'
    exact hiff.1 hwell
  · intro hfilters
    have hrenders := toQueryString_renders_of (p := fun _ => True) hkeys fun m hm => by
      obtain ⟨t, ht, hiff⟩ := h m hm
      rw [ht]
      exact .of_ok (hiff.2 (hfilters m hm))
    exact hrenders.ok_iff.2 fun _ _ => trivial
  · have hfields : Renders (∀ m ∈ s.entries, True) (fun fields => ∀ f ∈ fields, f.1.IsPlainText)
        s.fields := Renders.mapM fun m hm => by
      obtain ⟨t, ht, -⟩ := h m hm
      rw [ht]
      exact .of_ok (hkeys m hm)
    rcases hfields with ⟨-, fields, hfields, hnames⟩ | ⟨hfalse, -⟩
    · unfold toQueryString
      rw [hfields]
      exact Form.failsOnly_encode hnames
    · exact absurd (fun _ _ => trivial) hfalse

end Store

namespace Contents

variable {c : Contents}

/-- Every entry of a query that options build is sound. -/
theorem isSound_slots (hr : c.Read) (hp : c.Plain) :
    ∀ slot ∈ c.slots, ∀ e, slot.2 = some e → e.IsSound := by
  have hfilters : (Entry.rowFilters c.filters).IsSound :=
    Entry.isSound_rowFilters (RowFilter.allHold_iff.2 fun f hf => (hr.filters f hf).holds)
  have hsorts : (Entry.commaList (sortTokens c.sorts)).IsSound := by
    have htokens : sortTokens c.sorts =
        (c.sorts.map fun s => Query.sortToken s.1 s.2).map .text := List.map_map.symm
    rw [htokens]
    refine Entry.isSound_texts (List.forall_mem_map.2 fun s hs => ?_)
    have hdirection : s.2.wire.isWellFormed = true := Text.isWellFormed_ofString _
    simp [Query.sortToken, hp.sorts s hs, hdirection]
  exact forall_slots (P := fun _ e => e.IsSound)
    (fun w hw => Entry.isSound_scalar (hp.search w hw)) hfilters hsorts
    (Entry.isSound_texts hp.selects) (fun n hn => Entry.isSound_whole (hp.limit n hn))
    (fun n hn => Entry.isSound_whole (hp.offset n hn))
    (.of_isWellFormed (by decide) rfl rfl)
    fun w hw => Entry.isSound_scalar (hp.threshold w hw)

theorem hasWellFormedFilters_iff :
    (∀ m ∈ c.toStore.entries, m.2.HasWellFormedFilters) ↔
      ∀ f ∈ c.filters, f.toWire.isWellFormed = true := by
  constructor
  · intro h f hf
    have hentry : Slots.rowFilters c.filters = some (.rowFilters c.filters) :=
      if_neg (by simpa using List.ne_nil_of_mem hf)
    have hslot : (Parameter.filters, some (Entry.rowFilters c.filters)) ∈ c.slots := by
      rw [← hentry]
      simp [slots]
    exact h _ (Slots.mem_entries hslot) c.filters rfl f hf
  · intro h m hm fs hfs
    obtain ⟨⟨p, e⟩, hslot, he⟩ := List.mem_filterMap.1 hm
    obtain ⟨e, rfl, rfl⟩ := Option.map_eq_some_iff.1 he
    rw [eq_filters_of_mem_slots _ hslot fs (congrArg some hfs)]
    exact h

/-- Contents have a query string unless a row filter holds a lone surrogate half. -/
theorem toQueryString_iff (hr : c.Read) (hp : c.Plain) :
    ((∃ qs, c.toStore.toQueryString = .ok qs) ↔ ∀ f ∈ c.filters, f.toWire.isWellFormed = true) ∧
      FailsOnly (fun e => e.kind = .encoding) c.toStore.toQueryString := by
  rw [← hasWellFormedFilters_iff]
  refine Store.toQueryString_of_isSound (fun m hm => ?_) fun m hm => ?_
  all_goals
    obtain ⟨⟨p, e⟩, hslot, he⟩ := List.mem_filterMap.1 hm
    obtain ⟨e, rfl, rfl⟩ := Option.map_eq_some_iff.1 he
  · exact ⟨p.name, rfl, Slots.isWellFormed_name p⟩
  · exact isSound_slots hr hp _ hslot e rfl

end Contents

namespace Options

/-! ## Row filters of options -/

/-- No row filter among the options stands for a lone surrogate half by an escape in its JSON text. -/
def HasWellFormedFilters (o : Options) : Prop :=
  ∀ t : Text, .text t ∈ o.filters.elements?.getD [] →
    ∀ j, Json.read t = .ok j → j.toValue.isWellFormed = true

theorem isWellFormed_toWire_of_readFilter {t : Text} {f : RowFilter}
    (h : readFilter (.text t) = .ok f) :
    f.toWire.isWellFormed = true ↔ ∀ j, Json.read t = .ok j → j.toValue.isWellFormed = true := by
  obtain ⟨t', j, ht', hj, hf⟩ := readFilter_eq_ok h
  cases ht'
  rw [RowFilter.toWire_ofWire hj hf]
  refine ⟨fun hwell i hi => ?_, fun hwell => hwell j hj⟩
  cases hj.symm.trans hi
  exact hwell

theorem isWellFormed_toWire_listed {o : Options} (hv : AreTexts o.filters) {fs : List RowFilter}
    (h : readEach (fun raw => (readFilter raw).map fun f => [f]) o.filters = .ok fs) :
    (∀ f ∈ fs, f.toWire.isWellFormed = true) ↔ o.HasWellFormedFilters := by
  unfold HasWellFormedFilters
  rcases hv with hnull | ⟨vs, hlist, hvs⟩
  · rw [hnull] at h ⊢
    cases h
    simp [Value.elements?]
  · rw [hlist] at h ⊢
    rw [readEach_list] at h
    change _ ↔ ∀ t : Text, .text t ∈ vs → _
    clear hlist
    induction vs generalizing fs with
    | nil =>
      cases h
      simp
    | cons v vs ih =>
      obtain ⟨⟨t, rfl, -⟩, hrest⟩ := List.forall_mem_cons.1 hvs
      obtain ⟨first, hfirst, h⟩ := bind_eq_ok h
      obtain ⟨rest, hread, h⟩ := bind_eq_ok h
      obtain ⟨f, hf, rfl⟩ := map_eq_ok hfirst
      cases h
      rw [List.singleton_append, List.forall_mem_cons, isWellFormed_toWire_of_readFilter hf,
        ih hread hrest]
      constructor
      · rintro ⟨hfirst, hothers⟩ s hs
        rcases List.mem_cons.1 hs with hs | hs
        · cases hs
          exact hfirst
        · exact hothers s hs
      · exact fun h => ⟨h t List.mem_cons_self, fun s hs => h s (List.mem_cons_of_mem _ hs)⟩

/-- The row filters of areas hold numbers only. -/
theorem isWellFormed_toWire_areas {o : Options} {fs : List RowFilter} (h : readAreas o = .ok fs) :
    ∀ f ∈ fs, f.toWire.isWellFormed = true := by
  have hnumber : ∀ n : Number, n.toValue.isWellFormed = true := fun n => by cases n <;> rfl
  have hword : ∀ w : GeoWord, w.wire.isWellFormed = true := fun w => by
    cases w <;> exact Text.isWellFormed_ofString _
  have hkey : geoKey.isWellFormed = true := Text.isWellFormed_ofString _
  have hcircle : ∀ c : Circle, c.toFilter.toWire.isWellFormed = true := fun c => by
    simp [Circle.toFilter, RowFilter.toWire, RowFilter.isWellFormed_single, Value.isWellFormed,
      Value.allWellFormed, Value.allMembersWellFormed, hnumber, hword, hkey]
  have hrect : ∀ r : Rectangle, r.toFilter.toWire.isWellFormed = true := fun r => by
    simp [Rectangle.toFilter, RowFilter.toWire, RowFilter.isWellFormed_single, Value.isWellFormed,
      Value.allWellFormed, hnumber, hword, hkey]
  obtain ⟨circles, rects, hcircles, hrects, rfl⟩ := readAreas_eq_ok h
  exact List.forall_mem_append.2
    ⟨forall_readFilled (forall_singleton fun _ c _ => hcircle c) hcircles,
      forall_readFilled (forall_singleton fun _ r _ => hrect r) hrects⟩

theorem isWellFormed_toWire_grouped (combinator : Option Combinator) (fs : List RowFilter) :
    (∀ f ∈ Contents.grouped combinator fs, f.toWire.isWellFormed = true) ↔
      ∀ f ∈ fs, f.toWire.isWellFormed = true := by
  cases combinator with
  | none => exact Iff.rfl
  | some c =>
    cases fs with
    | nil => exact Iff.rfl
    | cons f fs =>
      have hgroup : (RowFilter.group c (f :: fs)).toWire.isWellFormed =
          Value.allWellFormed (toWires (f :: fs)) :=
        RowFilter.isWellFormed_single (RowFilter.isWellFormed_wire c) _
      change (∀ g ∈ [RowFilter.group c (f :: fs)], _) ↔ _
      rw [List.forall_mem_singleton, hgroup, RowFilter.allWellFormed_toWires]

/-- The row filters of a query are well formed exactly when those of the options are. -/
theorem isWellFormed_toWire_contents {o : Options} (ho : o.Declared) {c : Contents}
    (h : o.contents = .ok c) :
    (∀ f ∈ c.filters, f.toWire.isWellFormed = true) ↔ o.HasWellFormedFilters := by
  obtain ⟨listed, areas, combinator, hlisted, hareas, -, hfilters⟩ := (gives_of_contents h).filters
  rw [hfilters, isWellFormed_toWire_grouped, List.forall_mem_append,
    isWellFormed_toWire_listed ho.filters hlisted]
  exact and_iff_left (isWellFormed_toWire_areas hareas)

/-! ## Failures -/

/-- Options of the declared types are refused with one of the library's own errors, or their query is built.
Then it has a query string, unless an escape in a row filter stands for a lone surrogate half; encoding
the query string fails in that case, and with no other error. -/
theorem failures_of_declared {o : Options} (ho : o.Declared) :
    (∀ e, o.build.result = .error e → e.kind.isOwn = true) ∧
    (o.build.result = .ok () →
      ((∃ qs, o.build.state.toQueryString = .ok qs) ↔ o.HasWellFormedFilters) ∧
      ∀ e, o.build.state.toQueryString = .error e → e.kind = .encoding) := by
  refine ⟨fun e he => ?_, fun hbuilt => ?_⟩
  · cases hc : o.contents with
    | ok c => cases (build_of_contents hc).1.symm.trans he
    | error e' =>
      -- The first failure of a reading is the one that building reports.
      cases (build_of_error hc).symm.trans he
      exact failsOwn_contents ho _ hc
  · obtain ⟨c, hc, hstate⟩ := exists_contents hbuilt
    rw [hstate, ← isWellFormed_toWire_contents ho hc]
    exact Contents.toQueryString_iff (read_contents hc) (plain_contents ho hc)

/-- Options of one row filter, which is given as JSON text. -/
def filtering (json : Text) : Options :=
  { none with exact := .bool false, filters := .list [.text json], includeCount := .bool false }

theorem declared_filtering {json : Text} (h : json.isWellFormed = true) : (filtering json).Declared where
  search := .inl rfl
  exact := ⟨false, rfl⟩
  limit := .inl rfl
  offset := .inl rfl
  sort := .inl rfl
  select := .inl rfl
  filters := .inr ⟨_, rfl, List.forall_mem_singleton.2 ⟨json, rfl, h⟩⟩
  circle := .inl rfl
  rect := .inl rfl
  combine := .inl rfl
  includeCount := ⟨false, rfl⟩
  threshold := .inl rfl

/-- A row filter whose JSON text escapes a whole character. -/
def escapedLetter : Text := "\x7b\"a\":\"\\u00fc\"\x7d"

theorem failures_of_declared_escapedLetter :
    (filtering escapedLetter).Declared ∧ (filtering escapedLetter).build.result = .ok () ∧
      ∃ qs, (filtering escapedLetter).build.state.toQueryString = .ok qs := by
  have hdeclared : (filtering escapedLetter).Declared := declared_filtering rfl
  have hbuilt : (filtering escapedLetter).build.result = .ok () := by cbv
  have hread : Json.read escapedLetter = .ok (.object [("a", .text "ü")]) := by cbv
  refine ⟨hdeclared, hbuilt, ((failures_of_declared hdeclared).2 hbuilt).1.2 fun t ht j hj => ?_⟩
  cases List.mem_singleton.1 ht
  cases hread.symm.trans hj
  rfl

/-- A row filter whose JSON text escapes half a character. -/
def escapedHalf : Text := "\x7b\"a\":\"\\ud800\"\x7d"

/-- The query of a row filter with an escaped surrogate half is built, but encoding it fails, and not with
an error of the library's own. -/
theorem escapedHalf_not_encoded :
    (filtering escapedHalf).Declared ∧ (filtering escapedHalf).build.result = .ok () ∧
      (filtering escapedHalf).build.state.toQueryString = .error (.unencodable (.lone 0) 7 7) ∧
      (Failure.defect (.unrenderable (.unencodable (.lone 0) 7 7))).kind.isOwn = false := by
  have hbuilt : (filtering escapedHalf).build.result = .ok () := by cbv
  have hquery : (filtering escapedHalf).build.state.toQueryString =
      .error (.unencodable (.lone 0) 7 7) := by cbv
  exact ⟨declared_filtering rfl, hbuilt, hquery, rfl⟩

end Options

end RowQuery
