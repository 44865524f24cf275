import RowQuery.Proofs.Json.Encoding
import RowQuery.Proofs.Store.Invariant
import RowQuery.Proofs.Url.Form

/-!
# Serialization of stores

What the checks of a store let in and what its query string can hold differ in one place: the checks do
not look at the keys of mappings. Main statement: after any calls with plain values a store has a query
string exactly when the mappings that are written as JSON have keys that JSON allows, and whatever else
is in it, nothing else is in the way.
-/

namespace RowQuery

open RowQuery.Action (effect)

set_option autoImplicit false

/-! ## Values -/

namespace Value

theorem isWellFormed_tupleText {ts : List Text} (h : ∀ t ∈ ts, t.isWellFormed = true) :
    (tupleText ts).isWellFormed = true := by
  have hjoin := Text.isWellFormed_join (Text.isWellFormed_ofString ", ") h
  unfold tupleText
  split
  · next t =>
    have ht := h t List.mem_cons_self
    simp [ht]
  · simp [hjoin]

mutual

/-- A plain value can be inspected. -/
theorem inspect_plain : ∀ v : Value, v.Plain → ∃ t, inspect v = .ok t ∧ t.isWellFormed = true
  | null, _ => ⟨_, rfl, rfl⟩
  | bool b, _ => ⟨_, rfl, by cases b <;> rfl⟩
  | int n, hv => ⟨_, intText_plain hv, Text.isWellFormed_ofInt n⟩
  | float x, _ => ⟨_, rfl, Binary64.isWellFormed_toText x⟩
  | text t, hv => ⟨_, rfl, Text.isWellFormed_quoted hv⟩
  | list items, hv => by
    obtain ⟨ts, hts, hall⟩ := inspectAll_plain items hv
    have hjoin := Text.isWellFormed_join (Text.isWellFormed_ofString ", ") hall
    refine ⟨_, by rw [inspect, hts]; rfl, ?_⟩
    simp [hjoin]
  | tuple items, hv => by
    obtain ⟨ts, hts, hall⟩ := inspectAll_plain items hv
    exact ⟨_, by rw [inspect, hts]; rfl, isWellFormed_tupleText hall⟩
  | mapping members, hv => by
    obtain ⟨ts, hts, hall⟩ := inspectMembers_plain members hv
    have hjoin := Text.isWellFormed_join (Text.isWellFormed_ofString ", ") hall
    refine ⟨_, by rw [inspect, hts]; rfl, ?_⟩
    simp [hjoin]
  | octets _, hv | set _, hv | word _, hv | filter _, hv | circle _, hv | rectangle _, hv
  | query _, hv | store .., hv => hv.elim

theorem inspectAll_plain : ∀ vs : List Value, AllPlain vs →
    ∃ ts, inspectAll vs = .ok ts ∧ ∀ t ∈ ts, t.isWellFormed = true
  | [], _ => ⟨[], rfl, by simp⟩
  | v :: vs, hvs => by
    obtain ⟨t, ht, hfirst⟩ := inspect_plain v hvs.1
    obtain ⟨ts, hts, hrest⟩ := inspectAll_plain vs hvs.2
    exact ⟨t :: ts, by rw [inspectAll, ht, hts]; rfl, List.forall_mem_cons.2 ⟨hfirst, hrest⟩⟩

theorem inspectMembers_plain : ∀ ms : List (Value × Value), AllMembersPlain ms →
    ∃ ts, inspectMembers ms = .ok ts ∧ ∀ t ∈ ts, t.isWellFormed = true
  | [], _ => ⟨[], rfl, by simp⟩
  | (k, v) :: ms, hms => by
    obtain ⟨hk, hv, hms⟩ := hms
    obtain ⟨kt, hkt, hkey⟩ := inspect_plain k hk
    obtain ⟨vt, hvt, hvalue⟩ := inspect_plain v hv
    obtain ⟨ts, hts, hrest⟩ := inspectMembers_plain ms hms
    refine ⟨_ :: ts, by rw [inspectMembers, hkt, hvt, hts]; rfl, List.forall_mem_cons.2 ⟨?_, hrest⟩⟩
    simp [hkey, hvalue]

end

/-- A plain value is displayed without lone surrogate halves. -/
theorem display_plain {v : Value} (hv : v.Plain) : ∃ t, v.display = .ok t ∧ t.isWellFormed = true := by
  have hinspect := inspect_plain v hv
  cases v with
  | text t => exact ⟨t, rfl, hv⟩
  | word | filter => exact hv.elim
  | _ => exact hinspect

/-- A parameter value whose text exists: what is written as JSON has keys that JSON allows. -/
def IsRenderable : Value → Prop
  | v@(list _) | v@(mapping _) => v.HasJsonKeys
  | _ => True

/-- A plain finite value has a text exactly when it is renderable. -/
theorem render_renders {v : Value} (hv : v.Plain) (hf : v.isFinite = true) :
    Renders v.IsRenderable (fun t => t.isWellFormed = true) v.render := by
  have hdisplay : Renders True (fun t : Text => t.isWellFormed = true) v.display := by
    obtain ⟨t, ht, hwell⟩ := display_plain hv
    rw [ht]
    exact .of_ok hwell
  cases v with
  | bool b => exact .of_ok (by cases b <;> rfl)
  | float x => exact .of_ok (Binary64.isWellFormed_toFixed x)
  | list | mapping => exact toJsonText_renders hv hf
  | _ => exact hdisplay

mutual

/-- No query stands in a plain value. -/
theorem withQueries_plain (f : Text → QueryHandle) : ∀ v : Value, v.Plain → v.withQueries f = v
  | null, _ | bool _, _ | int _, _ | float _, _ | text _, _ => rfl
  | list items, hv => congrArg list (allWithQueries_plain f items hv)
  | tuple items, hv => congrArg tuple (allWithQueries_plain f items hv)
  | mapping members, hv => congrArg mapping (membersWithQueries_plain f members hv)
  | octets _, hv | set _, hv | word _, hv | filter _, hv | circle _, hv | rectangle _, hv
  | query _, hv | store .., hv => hv.elim

theorem allWithQueries_plain (f : Text → QueryHandle) :
    ∀ vs : List Value, AllPlain vs → allWithQueries f vs = vs
  | [], _ => rfl
  | v :: vs, hvs => by
    rw [allWithQueries, withQueries_plain f v hvs.1, allWithQueries_plain f vs hvs.2]

theorem membersWithQueries_plain (f : Text → QueryHandle) :
    ∀ ms : List (Value × Value), AllMembersPlain ms → membersWithQueries f ms = ms
  | [], _ => rfl
  | (k, v) :: ms, hms => by
    rw [membersWithQueries, withQueries_plain f k hms.1, withQueries_plain f v hms.2.1,
      membersWithQueries_plain f ms hms.2.2]

end

theorem normalize_plain {v : Value} (hv : v.Plain) : v.normalize = v := by
  cases v with
  | word => exact hv.elim
  | _ => rfl

end Value

/-! ## Row filters -/

namespace RowFilter

mutual

/-- The names, the operators and the operands in the row filter are plain. -/
def Plain : RowFilter → Prop
  | field key operator v =>
    key.isWellFormed = true ∧ (∀ o, operator = some o → o.isWellFormed = true) ∧ v.Plain
  | group _ fs => AllPlain fs

def AllPlain : List RowFilter → Prop
  | [] => True
  | f :: fs => Plain f ∧ AllPlain fs

end

mutual

/-- The mappings in the operands have keys that JSON allows. -/
def HasJsonKeys : RowFilter → Prop
  | field _ _ v => v.HasJsonKeys
  | group _ fs => AllHaveJsonKeys fs

def AllHaveJsonKeys : List RowFilter → Prop
  | [] => True
  | f :: fs => HasJsonKeys f ∧ AllHaveJsonKeys fs

end

theorem allPlain_iff {fs : List RowFilter} : AllPlain fs ↔ ∀ f ∈ fs, f.Plain := by
  induction fs with
  | nil => simp [AllPlain]
  | cons f fs ih => simp [AllPlain, ih]

theorem allHaveJsonKeys_iff {fs : List RowFilter} :
    AllHaveJsonKeys fs ↔ ∀ f ∈ fs, f.HasJsonKeys := by
  induction fs with
  | nil => simp [AllHaveJsonKeys]
  | cons f fs ih => simp [AllHaveJsonKeys, ih]

theorem plain_single {key : Text} {v : Value} (hk : key.isWellFormed = true) (hv : v.Plain) :
    (single key v).Plain := ⟨hk, hv, trivial⟩

theorem isFinite_single (key : Text) (v : Value) : (single key v).isFinite = v.isFinite :=
  Bool.and_true _

theorem hasJsonKeys_single (key : Text) (v : Value) :
    (single key v).HasJsonKeys ↔ v.HasJsonKeys := by
  simp [single, Value.HasJsonKeys, Value.AllMembersHaveJsonKeys, Value.IsJsonKey]

theorem isWellFormed_wire (c : Combinator) : c.wire.isWellFormed = true :=
  Text.isWellFormed_ofString _

mutual

theorem plain_toWire : ∀ f : RowFilter, f.Plain → f.toWire.Plain
  | field _ none _, h => plain_single h.1 h.2.2
  | field _ (some o) _, h => plain_single h.1 (plain_single (h.2.1 o rfl) h.2.2)
  | group c fs, h => plain_single (isWellFormed_wire c) (plain_toWires fs h)

theorem plain_toWires : ∀ fs : List RowFilter, AllPlain fs → Value.AllPlain (toWires fs)
  | [], _ => trivial
  | f :: fs, h => ⟨plain_toWire f h.1, plain_toWires fs h.2⟩

end

mutual

theorem isFinite_toWire : ∀ f : RowFilter, f.Valid → f.toWire.isFinite = true
  | field key none v, h => (isFinite_single key v).trans h
  | field key (some o) v, h => by
    rw [toWire, isFinite_single, isFinite_single]
    exact h
  | group c fs, h => (isFinite_single c.wire _).trans (allFinite_toWires fs h.2)

theorem allFinite_toWires : ∀ fs : List RowFilter, AllValid fs →
    Value.allFinite (toWires fs) = true
  | [], _ => rfl
  | f :: fs, h => Bool.and_eq_true_iff.2 ⟨isFinite_toWire f h.1, allFinite_toWires fs h.2⟩

end

mutual

theorem hasJsonKeys_toWire : ∀ f : RowFilter, f.toWire.HasJsonKeys ↔ f.HasJsonKeys
  | field key none v => hasJsonKeys_single key v
  | field key (some o) v => (hasJsonKeys_single key _).trans (hasJsonKeys_single o v)
  | group c fs => (hasJsonKeys_single c.wire _).trans (allHaveJsonKeys_toWires fs)

theorem allHaveJsonKeys_toWires : ∀ fs : List RowFilter,
    Value.AllHaveJsonKeys (toWires fs) ↔ AllHaveJsonKeys fs
  | [] => Iff.rfl
  | f :: fs => and_congr (hasJsonKeys_toWire f) (allHaveJsonKeys_toWires fs)

end

end RowFilter

/-! ## Entries -/

namespace Entry

/-- What the entry holds is plain. -/
def Plain : Entry → Prop := Every Value.Plain RowFilter.Plain

/-- What the entry holds as JSON has keys that JSON allows. -/
def IsRenderable : Entry → Prop := Every Value.IsRenderable RowFilter.HasJsonKeys

theorem withQueries_plain (f : Text → QueryHandle) {e : Entry} (he : e.Plain) :
    e.withQueries f = e := by
  cases e with
  | scalar v => exact congrArg scalar (Value.withQueries_plain f v he)
  | commaList vs =>
    have hmap : vs.map (Value.withQueries f) = vs.map id :=
      List.map_congr_left fun v hv => Value.withQueries_plain f v (he v hv)
    rw [withQueries, Value.allWithQueries_eq_map, hmap, List.map_id]
  | rowFilters fs => rfl

theorem render_renders {filtersKey : Text} {key : Value} {e : Entry} (he : e.Plain)
    (hw : e.WellFormed filtersKey key) :
    Renders e.IsRenderable (fun t => t.isWellFormed = true) e.render := by
  cases e with
  | scalar v => exact Value.render_renders he hw.2
  | commaList vs =>
    have hvalues : Renders (∀ v ∈ vs, v.IsRenderable) _ (vs.mapM Value.render) :=
      Renders.mapM fun v hv => Value.render_renders (he v hv) (hw.2 v hv)
    exact hvalues.map fun ts hts => Text.isWellFormed_join rfl hts
  | rowFilters fs =>
    have hplain : (Value.list (RowFilter.toWires fs)).Plain :=
      RowFilter.plain_toWires fs (RowFilter.allPlain_iff.2 he)
    have hfinite : (Value.list (RowFilter.toWires fs)).isFinite = true :=
      RowFilter.allFinite_toWires fs (RowFilter.allValid_iff.2 hw.2.2)
    have hkeys : (Value.list (RowFilter.toWires fs)).HasJsonKeys ↔ ∀ f ∈ fs, f.HasJsonKeys :=
      (RowFilter.allHaveJsonKeys_toWires fs).trans RowFilter.allHaveJsonKeys_iff
    exact (Value.toJsonText_renders hplain hfinite).congr hkeys

end Entry

/-! ## Stores -/

/-- A text without lone surrogate halves. -/
def Value.IsPlainText (v : Value) : Prop := ∃ t, v = .text t ∧ t.isWellFormed = true

namespace Store

/-- The keys of the store are texts without lone surrogate halves, and its entries are plain. -/
structure Plain (s : Store) : Prop where
  filtersKey : s.rowFilterKey.isWellFormed = true
  members : ∀ m ∈ s.entries, m.1.IsPlainText ∧ m.2.Plain

theorem Plain.withQueries {s : Store} (h : s.Plain) (f : Text → QueryHandle) :
    (s.withQueries f).Plain := by
  refine ⟨h.filtersKey, fun m hm => ?_⟩
  obtain ⟨n, hn, rfl⟩ := List.mem_map.1 hm
  obtain ⟨⟨t, ht, hwell⟩, hentry⟩ := h.members n hn
  refine ⟨⟨t, by rw [ht]; rfl, hwell⟩, ?_⟩
  rw [Entry.withQueries_plain f hentry]
  exact hentry

theorem Plain.put {s : Store} (h : s.Plain) {key : Value} {e : Entry} (hkey : key.IsPlainText)
    (he : e.Plain) : (s.put key e).Plain := by
  refine ⟨h.filtersKey, forall_mem_put h.members fun k hk => ?_⟩
  rcases hk with rfl | ⟨hmem, -⟩
  · exact ⟨hkey, he⟩
  · obtain ⟨m, hm, rfl⟩ := List.mem_map.1 hmem
    exact ⟨(h.members m hm).1, he⟩

theorem encodeField_renders {field : Value × Text} (hkey : field.1.IsPlainText)
    (htext : field.2.isWellFormed = true) :
    Renders True (fun _ => True) (Form.encodeField field) := by
  obtain ⟨k, t⟩ := field
  obtain ⟨name, rfl, hname⟩ := hkey
  obtain ⟨encoded, he, -, -⟩ := @Form.encodeField_ok (name, t) hname htext
  rw [he]
  exact .of_ok trivial

/-- Fields of plain texts are always encoded. -/
theorem encode_renders {fields : List (Value × Text)}
    (h : ∀ f ∈ fields, f.1.IsPlainText ∧ f.2.isWellFormed = true) :
    Renders True (fun _ => True) (Form.encode fields) := by
  have hfields : Renders (∀ f ∈ fields, True) _ (fields.mapM Form.encodeField) :=
    Renders.mapM fun f hf => encodeField_renders (h f hf).1 (h f hf).2
  exact (hfields.map fun _ _ => trivial).congr (by simp)

/-- A store whose keys are plain texts has a query string exactly when every entry has a text without lone
surrogate halves. -/
theorem toQueryString_renders_of {s : Store} {p : Entry → Prop}
    (hkeys : ∀ m ∈ s.entries, m.1.IsPlainText)
    (h : ∀ m ∈ s.entries, Renders (p m.2) (fun t => t.isWellFormed = true) m.2.render) :
    Renders (∀ m ∈ s.entries, p m.2) (fun _ => True) s.toQueryString := by
  have hfields : Renders (∀ m ∈ s.entries, p m.2)
      (fun fields => ∀ f ∈ fields, f.1.IsPlainText ∧ f.2.isWellFormed = true) s.fields :=
    Renders.mapM fun m hm => (h m hm).map fun t ht => ⟨hkeys m hm, ht⟩
  -- Names and texts without lone surrogate halves are always encoded.
  exact (hfields.bind fun fields h => encode_renders h).congr (Iff.of_eq (and_true _))

/-- A plain store has a query string exactly when every entry can be rendered. -/
theorem toQueryString_renders {s : Store} (hp : s.Plain) (hw : s.WellFormed) :
    Renders (∀ m ∈ s.entries, m.2.IsRenderable) (fun _ => True) s.toQueryString :=
  toQueryString_renders_of (fun m hm => (hp.members m hm).1) fun m hm =>
    Entry.render_renders (hp.members m hm).2 (hw.entries m hm)

namespace Operation

/-- What a call is given is plain: its key is a text, and a row filter in it was made by the library. -/
def Plain : Operation → Prop
  | set key v | append key v => key.IsPlainText ∧ v.Plain
  | addRowFilter v => ∀ f, v = .filter f → f.Built ∧ f.Plain
  | fold .. => True

theorem Plain.built {op : Operation} (h : op.Plain) : op.Built := by
  cases op with
  | addRowFilter v => exact fun f hf => (h f hf).1
  | set | append | fold => trivial

theorem Plain.brings {op : Operation} (h : op.Plain) : op.Brings Value.Plain RowFilter.Plain := by
  cases op with
  | set key v | append key v =>
    intro _
    rw [Value.normalize_plain h.2]
    exact h.2
  | addRowFilter v => exact fun f hf => (h f hf).2
  | fold => trivial

/-- A call with plain values puts a plain entry under a plain key. -/
theorem Writes.plain {family : Family} {self : Text} {op : Operation} {r : Option RowFilter}
    {key : Value} {e : Entry} (h : Writes family self op r key e) (hop : op.Plain)
    (hall : family.All Store.Plain) : key.IsPlainText ∧ e.Plain := by
  have hgroup : ∀ c fs, fs ≠ [] → (∀ f ∈ fs, f.Plain) → (RowFilter.group c fs).Plain :=
    fun _ _ _ hfs => RowFilter.allPlain_iff.2 hfs
  have hevery := h.every hop.brings hgroup fun name m hm => ((hall name).members m hm).2
  have hfilters : (Value.text (family.get self).rowFilterKey).IsPlainText :=
    ⟨_, rfl, (hall self).filtersKey⟩
  cases h with
  | scalar | commaList => exact ⟨hop.1, hevery⟩
  | rowFilter | group => exact ⟨hfilters, hevery⟩

theorem Plain.keptBy {op : Operation} (h : op.Plain) : KeptBy Store.Plain op where
  update _ f _ hs := hs.withQueries f
  write _ self hall _ _ _ hwrites := (hall self).put (hwrites.plain h hall).1 (hwrites.plain h hall).2

/-- After any calls with plain values a store has a query string exactly when what it holds as JSON has
keys that JSON allows, and a failure is about such a key. -/
theorem toQueryString_runAll {family : Family} {steps : List (Text × Operation)}
    (hempty : ∀ name, (family.get name).entries = [])
    (hkeys : ∀ name, (family.get name).rowFilterKey.isWellFormed = true)
    (hplain : ∀ st ∈ steps, st.2.Plain) (name : Text) :
    let s := (runAll family steps).get name
    ((∃ qs, s.toQueryString = .ok qs) ↔ ∀ m ∈ s.entries, m.2.IsRenderable) ∧
      ∀ e, s.toQueryString = .error e → e.IsKeyFailure := by
  intro s
  have hp : s.Plain := by
    have hall : family.All Store.Plain := fun n => ⟨hkeys n, by simp [hempty n]⟩
    exact all_runAll (fun st hst => (hplain st hst).keptBy) hall name
  have hw : s.WellFormed := by
    have hall : family.All WellFormed := fun n => wellFormed_of_empty (hempty n)
    exact all_runAll (fun st hst => (hplain st hst).built.keptBy) hall name
  have hrenders := toQueryString_renders hp hw
  exact ⟨hrenders.ok_iff, fun e he => hrenders.keyFailure he⟩

/-- Calls with mappings whose keys are no texts: JSON allows null as a key, and what stands in a tuple is
displayed. -/
def keyedCalls : List (Text × Operation) :=
  [("a", .set (.ofString "k") (.mapping [(.null, .int 1)])),
    ("a", .append (.ofString "t") (.tuple [.mapping [(.tuple [.int 1, .int 2], .null)]]))]

theorem toQueryString_keyedCalls :
    ∃ qs, ((runAll ⟨[]⟩ keyedCalls).get "a").toQueryString = .ok qs := by
  have hempty : ∀ name, ((⟨[]⟩ : Family).get name).entries = [] := fun _ => rfl
  have hkeys : ∀ name, ((⟨[]⟩ : Family).get name).rowFilterKey.isWellFormed = true := fun _ => rfl
  have hdigits : ∀ n ∈ [1, 2], Decimal.length n ≤ Literal.maxIntDigits := by decide
  have hplain : ∀ st ∈ keyedCalls, st.2.Plain := by
    intro st hst
    simp only [keyedCalls, List.mem_cons, List.not_mem_nil, or_false] at hst
    rcases hst with rfl | rfl
    · exact ⟨⟨_, rfl, rfl⟩, trivial, hdigits 1 (by decide), trivial⟩
    · refine ⟨⟨_, rfl, rfl⟩, ⟨?_, trivial, trivial⟩, trivial⟩
      exact ⟨hdigits 1 (by decide), hdigits 2 (by decide), trivial⟩
  refine (toQueryString_runAll hempty hkeys hplain "a").1.2 fun m hm => ?_
  have hentries : ((runAll ⟨[]⟩ keyedCalls).get "a").entries = [_, _] := rfl
  rw [hentries] at hm
  simp only [List.mem_cons, List.not_mem_nil, or_false] at hm
  rcases hm with rfl | rfl
  · exact ⟨trivial, trivial, trivial⟩
  · rintro v hv
    rw [List.mem_singleton.1 hv]
    trivial

/-- A call with a NaN as the key of a mapping. -/
def nanKeyCall : Operation := .set (.ofString "k") (.mapping [(.float .nan, .int 1)])

/-- A store accepts a mapping with a NaN as a key, and has no query string from then on. -/
theorem nanKey_not_serialized :
    nanKeyCall.Plain ∧ (effect (step "a" nanKeyCall) ⟨[]⟩).1 = .ok none ∧
      ((runAll ⟨[]⟩ [("a", nanKeyCall)]).get "a").toQueryString = .error .nonFinite := by
  have hdigits : Decimal.length 1 ≤ Literal.maxIntDigits := by decide
  exact ⟨⟨⟨_, rfl, rfl⟩, trivial, hdigits, trivial⟩, rfl, rfl⟩

end Operation

end Store

end RowQuery
