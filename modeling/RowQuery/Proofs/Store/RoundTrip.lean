import Mathlib.Data.List.Forall2
import RowQuery.Proofs.Filter.Canonical
import RowQuery.Proofs.Json.RoundTrip
import RowQuery.Proofs.Store.Runs
import RowQuery.Proofs.Url.Form
import RowQuery.Store.Decoding
import RowQuery.Store.Rendering

/-!
# Query strings read back

The query string of a store is decoded into its parameters: every key once and in the order of the
store, with the text of its entry, or with the wire forms of the row filters. Three readers undo
three writers here, for JSON, for UTF-8 and for the form encoding.
-/

namespace RowQuery

open Json (Every EveryItem Writable Settled)

set_option autoImplicit false

namespace Parameters

theorem equal_text (a b : Text) : Value.equal (.text a) (.text b) = decide (a = b) := by
  by_cases h : a = b <;> simp [Value.equal, Value.sameAtom, Value.quantity?, Value.text?, h]

/-- What the reader makes of one field. -/
def readField (filtersKey : Text) (field : Text × Text) : Except Failure Value :=
  if field.1 = filtersKey then readFilters field.1 field.2 else .ok (.text field.2)

theorem addField_eq (filtersKey : Text) (ps : Parameters) (field : Text × Text) :
    addField (.text filtersKey) ps field =
      (readField filtersKey field).map (ps.insert field.1) := by
  unfold addField readField
  rw [equal_text]
  by_cases h : field.1 = filtersKey <;> simp [h, Except.map]

theorem insert_new {ps : Parameters} {k : Text} (h : ∀ p ∈ ps, p.1 ≠ k) (v : Value) :
    ps.insert k v = ps ++ [(k, v)] := by
  induction ps with
  | nil => rfl
  | cons p ps ih =>
    rw [insert, if_neg (h p List.mem_cons_self), ih fun q hq => h q (List.mem_cons_of_mem _ hq),
      List.cons_append]

/-- Fields under distinct keys become parameters one by one. -/
theorem foldlM_addField {filtersKey : Text} {fields : List (Text × Text)} {ps : Parameters}
    (hread : List.Forall₂ (fun f p => f.1 = p.1 ∧ readField filtersKey f = .ok p.2) fields ps)
    (hdistinct : (ps.map Prod.fst).Nodup) :
    fields.foldlM (addField (.text filtersKey)) [] = .ok ps := by
  have hfold : ∀ kept : Parameters, (∀ p ∈ kept, ∀ q ∈ ps, p.1 ≠ q.1) →
      fields.foldlM (addField (.text filtersKey)) kept = .ok (kept ++ ps) := by
    -- No key comes twice, so every parameter is new when its field is read.
    induction hread with
    | nil => exact fun kept _ => congrArg Except.ok (List.append_nil kept).symm
    | @cons f p fields ps hf _ ih =>
      intro kept hkept
      obtain ⟨hkey, hvalue⟩ := hf
      obtain ⟨hp, hps⟩ := List.nodup_cons.1 hdistinct
      have hnew : ∀ q ∈ kept, q.1 ≠ f.1 := fun q hq => hkey ▸ hkept q hq p List.mem_cons_self
      have hadd : addField (.text filtersKey) kept f = .ok (kept ++ [p]) := by
        rw [addField_eq, hvalue, Except.map, insert_new hnew, hkey]
      have hrest := ih hps (kept ++ [p]) fun q hq r hr => by
        rcases List.mem_append.1 hq with hq | hq
        · exact hkept q hq r (List.mem_cons_of_mem _ hr)
        · rw [List.mem_singleton.1 hq]
          exact fun he => hp (he ▸ List.mem_map_of_mem hr)
      rw [List.foldlM_cons, hadd]
      exact hrest.trans (congrArg Except.ok (List.append_assoc _ _ _))
  exact hfold [] nofun

end Parameters

namespace Store

/-! ## The entry of the row filters -/

theorem findEntry?_of_mem {es : List (Value × Entry)} (htexts : ∀ l ∈ es.map Prod.fst, ∃ t, l = .text t)
    (hd : (es.map Prod.fst).Nodup) {k : Text} {e : Entry} (he : (.text k, e) ∈ es) :
    findEntry? es (.text k) = some e := by
  induction es with
  | nil => cases he
  | cons m es ih =>
    obtain ⟨l, old⟩ := m
    obtain ⟨hl, hes⟩ : l ∉ es.map Prod.fst ∧ (es.map Prod.fst).Nodup := List.nodup_cons.1 hd
    obtain ⟨⟨t, ht⟩, hrest⟩ := List.forall_mem_cons.1 htexts
    obtain rfl : l = .text t := ht
    rw [findEntry?_cons]
    rcases List.mem_cons.1 he with he | he
    · cases he
      rw [if_pos (Value.sameKey_text_iff.2 rfl)]
    · have hne : t ≠ k := fun htk => hl (htk ▸ List.mem_map_of_mem he)
      rw [if_neg (by simpa using hne), ih hrest hes he]

/-- The row filters of a store are those of its row filter entry, if it has one. -/
theorem rowFilters_of_mem {s : Store} (h : s.Keyed) {k : Text} {filters : List RowFilter}
    (he : (.text k, .rowFilters filters) ∈ s.entries) :
    k = s.rowFilterKey ∧ filters = s.rowFilters := by
  have hk : k = s.rowFilterKey := Value.text.inj (h.filters _ he rfl)
  have hget : s.get? (.text s.rowFilterKey) = some (.rowFilters filters) :=
    hk ▸ findEntry?_of_mem h.texts h.distinct he
  refine ⟨hk, ?_⟩
  unfold rowFilters
  rw [hget]

/-- The text of row filters that hold JSON data is read as their wire forms. -/
theorem readFilters_toWires {filters : List RowFilter}
    (h : RowFilter.AllHold (Every Writable) filters) (key : Text) :
    ∃ t, (Entry.rowFilters filters).render = .ok t ∧
      Parameters.readFilters key t = .ok (.list (RowFilter.toWires filters)) := by
  have htext : ∀ t, Writable (.text t) := fun _ => ⟨trivial, trivial⟩
  obtain ⟨js, hs, hw, hwires⟩ := RowFilter.exists_jsons htext filters h
  have hread := Json.read_render (j := .array js) hs hw
  refine ⟨Json.render Json.wire (.array js), ?_, ?_⟩
  · change (Value.list (RowFilter.toWires filters)).toJsonText = _
    rw [hwires]
    exact Json.toJsonText_toValue (j := .array js) hw
  · unfold Parameters.readFilters
    rw [hread, hwires]
    rfl

/-! ## Whole stores -/

/-- What an entry of a store is decoded to: the wire forms of the row filters, or the text of the
entry. -/
def Decodes (s : Store) (e : Value × Entry) (p : Text × Value) : Prop :=
  e.1 = .text p.1 ∧
    match e.2 with
    | .rowFilters _ => p.2 = .list (RowFilter.toWires s.rowFilters)
    | entry => ∃ t, entry.render = .ok t ∧ p.2 = .text t

/-- An entry is read back as a parameter from the text that it is rendered as. -/
structure Sends (filtersKey : Text) (e : Value × Entry) (p : Text × Value) : Prop where
  key : e.1 = .text p.1
  wellFormed : p.1.isWellFormed = true
  read : ∃ t, e.2.render = .ok t ∧ t.isWellFormed = true ∧
    Parameters.readField filtersKey (p.1, t) = .ok p.2

/-- Entries that are sent are fields whose texts the reader takes back. -/
theorem fields_of_sends {filtersKey : Text} {es : List (Value × Entry)} {ps : Parameters}
    (h : List.Forall₂ (Sends filtersKey) es ps) :
    ∃ fields : List (Text × Text),
      es.mapM (fun e => e.2.render.map fun t => (e.1, t)) =
        .ok (fields.map fun f => (.text f.1, f.2)) ∧
      (∀ f ∈ fields, f.1.isWellFormed = true ∧ f.2.isWellFormed = true) ∧
      List.Forall₂
        (fun f p => f.1 = p.1 ∧ Parameters.readField filtersKey f = .ok p.2) fields ps := by
  induction h with
  | nil => exact ⟨[], rfl, nofun, .nil⟩
  | @cons e p es ps he _ ih =>
    obtain ⟨t, ht, hwell, hvalue⟩ := he.read
    obtain ⟨fields, hfields, hall, hread⟩ := ih
    refine ⟨(p.1, t) :: fields, ?_, ?_, .cons ⟨rfl, hvalue⟩ hread⟩
    · rw [List.mapM_cons, ht, hfields, he.key]
      rfl
    · exact List.forall_mem_cons.2 ⟨⟨he.wellFormed, hwell⟩, hall⟩

/-- Entries under distinct keys are decoded as the parameters that they are read back as. -/
theorem decode_of_sends {filtersKey : Text} {s : Store} {ps : Parameters}
    (h : List.Forall₂ (Sends filtersKey) s.entries ps) (hdistinct : (ps.map Prod.fst).Nodup) :
    ∃ qs, s.toQueryString = .ok qs ∧ Parameters.decode qs (.text filtersKey) = .ok ps := by
  obtain ⟨fields, hfields, hwell, hread⟩ := fields_of_sends h
  obtain ⟨qs, hencode, hdecode⟩ := Form.decode_encode hwell
  refine ⟨qs, ?_, ?_⟩
  · unfold toQueryString Store.fields
    rw [hfields]
    exact hencode
  · unfold Parameters.decode
    rw [hdecode]
    exact Parameters.foldlM_addField hread hdistinct

/-- A store whose query string can be read back. -/
structure Transmissible (s : Store) : Prop where
  isOpen : s.Open
  renders : ∀ e ∈ s.entries, e.2.kind ≠ .rowFilters → ∃ t, e.2.render = .ok t
  keys : ∀ k, Value.text k ∈ s.keys → k.isWellFormed = true
  texts : ∀ e ∈ s.entries, ∀ t, e.2.render = .ok t → t.isWellFormed = true
  filters : RowFilter.AllHold (Every Writable) s.rowFilters

/-- Every entry of a transmissible store is sent. -/
theorem exists_sends {s : Store} (hk : s.Keyed) (hs : s.Transmissible) {e : Value × Entry}
    (he : e ∈ s.entries) : ∃ p, Sends s.rowFilterKey e p ∧ s.Decodes e p := by
  obtain ⟨key, entry⟩ := e
  obtain ⟨k, rfl⟩ := hk.texts key (List.mem_map_of_mem he)
  have hwell := hs.keys k (List.mem_map_of_mem he)
  by_cases hkind : entry.kind = .rowFilters
  · obtain ⟨filters, rfl⟩ : ∃ filters, entry = .rowFilters filters := by
      cases entry with
      | rowFilters filters => exact ⟨filters, rfl⟩
      | scalar | commaList => cases hkind
    obtain ⟨rfl, rfl⟩ := rowFilters_of_mem hk he
    obtain ⟨t, ht, hread⟩ := readFilters_toWires hs.filters s.rowFilterKey
    refine ⟨(s.rowFilterKey, .list (RowFilter.toWires s.rowFilters)), ⟨rfl, hwell, t, ht, ?_, ?_⟩,
      rfl, rfl⟩
    · exact hs.texts _ he t ht
    · exact (if_pos rfl).trans hread
  · obtain ⟨t, ht⟩ := hs.renders _ he hkind
    -- A parameter under the key of the row filters would be read as JSON.
    have hne : k ≠ s.rowFilterKey := by
      rintro rfl
      exact hkind (hs.isOpen entry (findEntry?_of_mem hk.texts hk.distinct he))
    refine ⟨(k, .text t), ⟨rfl, hwell, t, ht, hs.texts _ he t ht, if_neg hne⟩, rfl, ?_⟩
    cases entry with
    | rowFilters => exact absurd rfl hkind
    | scalar | commaList => exact ⟨t, ht, rfl⟩

theorem forall₂_sends {s : Store} {es : List (Value × Entry)}
    (h : ∀ e ∈ es, ∃ p, Sends s.rowFilterKey e p ∧ s.Decodes e p) :
    ∃ ps : Parameters,
      List.Forall₂ (Sends s.rowFilterKey) es ps ∧ List.Forall₂ s.Decodes es ps := by
  induction es with
  | nil => exact ⟨[], .nil, .nil⟩
  | cons e es ih =>
    obtain ⟨p, hp, hdec⟩ := h e List.mem_cons_self
    obtain ⟨ps, hps, hdecs⟩ := ih fun e' he => h e' (List.mem_cons_of_mem _ he)
    exact ⟨p :: ps, .cons hp hps, .cons hdec hdecs⟩

theorem keys_eq_of_decodes {s : Store} {es : List (Value × Entry)} {ps : Parameters}
    (h : List.Forall₂ s.Decodes es ps) : es.map Prod.fst = ps.map fun p => .text p.1 := by
  induction h with
  | nil => rfl
  | cons he _ ih => rw [List.map_cons, List.map_cons, he.1, ih]

/-- A keyed store is decoded from its query string. -/
theorem decode_of_keyed {s : Store} (hk : s.Keyed) (hs : s.Transmissible) :
    ∃ qs ps, s.toQueryString = .ok qs ∧ Parameters.decode qs (.text s.rowFilterKey) = .ok ps ∧
      List.Forall₂ s.Decodes s.entries ps ∧ (ps.map Prod.fst).Nodup := by
  obtain ⟨ps, hsends, hdec⟩ := forall₂_sends fun e he => exists_sends hk hs he
  have hdistinct : (ps.map Prod.fst).Nodup := by
    have hkeys := hk.distinct
    rw [keys, keys_eq_of_decodes hdec, ← Function.comp_def Value.text, ← List.map_map] at hkeys
    exact List.Pairwise.of_map _ (fun _ _ h he => h (congrArg _ he)) hkeys
  obtain ⟨qs, hqs, hps⟩ := decode_of_sends hsends hdistinct
  exact ⟨qs, ps, hqs, hps, hdec, hdistinct⟩

/-- In every run from empty stores, a store that can be sent is decoded from its query string: every
key once, in order, with the text of its entry or the wire forms of the row filters. -/
theorem decode_toQueryString {family : Family} (hfresh : ∀ name, (family.get name).entries = [])
    (steps : List (Text × Call)) {name : Text} (hs : ((run family steps).get name).Transmissible) :
    let s := (run family steps).get name
    ∃ qs ps, s.toQueryString = .ok qs ∧ Parameters.decode qs (.text s.rowFilterKey) = .ok ps ∧
      List.Forall₂ s.Decodes s.entries ps ∧ (ps.map Prod.fst).Nodup ∧
        (s.entries = [] → qs = [] ∧ ps = []) := by
  have hk : ((run family steps).get name).Keyed :=
    keyed_run (fun other => keyed_of_empty (hfresh other)) steps name
  obtain ⟨qs, ps, hqs, hps, hdec, hdistinct⟩ := decode_of_keyed hk hs
  refine ⟨qs, ps, hqs, hps, hdec, hdistinct, fun hempty => ?_⟩
  have hnone : ((run family steps).get name).toQueryString = .ok [] := by
    unfold toQueryString Store.fields
    rw [hempty]
    rfl
  rw [hempty] at hdec
  cases hdec
  exact ⟨Except.ok.inj (hqs.symm.trans hnone), rfl⟩

/-- Calls of one store that end in a fold, with separators in its keys and texts. -/
def foldedCalls : List (Text × Call) :=
  [("s", .set "a b" (.text "x=1&y+%?")), ("s", .append "l" (.text "ü")),
    ("s", .addRowFilter (.filter (.field "name" (some "$in") (.list [.int 1, .bool true, .null])))),
    ("s", .fold (.text "$or") (.tuple []))]

def foldedFilters : List RowFilter :=
  [.group .or [.field "name" (some "$in") (.list [.int 1, .bool true, .null])]]

def foldedStore : Store where
  rowFilterKey := "f&g"
  entries := [(.text "a b", .scalar (.text "x=1&y+%?")), (.text "l", .commaList [.text "ü"]),
    (.text "f&g", .rowFilters foldedFilters)]

theorem allHold_foldedFilters : RowFilter.AllHold (Every Writable) foldedFilters := by
  have hone : Decimal.length 1 ≤ Literal.maxIntDigits := by decide
  refine ⟨⟨List.cons_ne_nil _ _, ?_, trivial⟩, trivial⟩
  refine ⟨.array [.int 1, .bool true, .null], ?_, ?_, rfl⟩
  · exact ⟨trivial, trivial, trivial, trivial⟩
  · exact ⟨⟨hone, trivial⟩, ⟨trivial, trivial⟩, ⟨trivial, trivial⟩, trivial⟩

theorem transmissible_foldedStore : foldedStore.Transmissible where
  isOpen := by
    rintro e ⟨⟩
    rfl
  renders := by
    intro e he hkind
    simp only [foldedStore, List.mem_cons, List.not_mem_nil, or_false] at he
    rcases he with rfl | rfl | rfl
    · exact ⟨_, rfl⟩
    · exact ⟨_, rfl⟩
    · exact absurd rfl hkind
  keys := by
    intro k hk
    simp only [foldedStore, keys, List.map_cons, List.map_nil, List.mem_cons, List.not_mem_nil,
      or_false] at hk
    rcases hk with hk | hk | hk <;> cases hk <;> rfl
  texts := by
    intro e he t ht
    simp only [foldedStore, List.mem_cons, List.not_mem_nil, or_false] at he
    rcases he with rfl | rfl | rfl <;> cases ht <;> rfl
  filters := allHold_foldedFilters

/-- After the calls every parameter is read back from the query string. -/
theorem decode_toQueryString_foldedCalls :
    ∃ qs, ((run ⟨[("s", Store.empty "f&g")]⟩ foldedCalls).get "s").toQueryString = .ok qs ∧
      Parameters.decode qs (.text "f&g") = .ok [("a b", .text "x=1&y+%?"), ("l", .text "ü"),
        ("f&g", .list (RowFilter.toWires foldedFilters))] := by
  have hrun : (run ⟨[("s", Store.empty "f&g")]⟩ foldedCalls).get "s" = foldedStore := rfl
  have hfresh : ∀ name, (Family.get ⟨[("s", Store.empty "f&g")]⟩ name).entries = [] := by
    intro name
    unfold Family.get
    rw [Family.findMember_cons]
    split <;> rfl
  obtain ⟨qs, ps, hqs, hps, hdec, -, -⟩ :=
    decode_toQueryString hfresh foldedCalls (hrun ▸ transmissible_foldedStore)
  refine ⟨qs, hqs, hps.trans ?_⟩
  rw [hrun] at hdec
  simp only [foldedStore, List.forall₂_cons_left_iff, List.forall₂_nil_left_iff] at hdec
  obtain ⟨⟨k₁, v₁⟩, -, ⟨h₁, t₁, ht₁, hv₁⟩, ⟨⟨k₂, v₂⟩, -, ⟨h₂, t₂, ht₂, hv₂⟩,
    ⟨⟨k₃, v₃⟩, -, ⟨h₃, hv₃⟩, rfl, rfl⟩, rfl⟩, rfl⟩ := hdec
  cases h₁
  cases h₂
  cases h₃
  cases ht₁
  cases ht₂
  cases hv₁
  cases hv₂
  cases hv₃
  rfl

end Store

end RowQuery
