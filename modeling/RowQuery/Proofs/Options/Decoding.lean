import RowQuery.Proofs.Filter.Construction
import RowQuery.Proofs.Options.Slots
import RowQuery.Proofs.Store.RoundTrip
import RowQuery.Proofs.Text.WellFormed

/-!
# Decoding queries of slots

A query string exists only where every entry has a text without lone surrogate halves. So a query of
slots that has a query string is decoded from it, slot by slot, as long as its row filters hold JSON data
that can be written.
-/

namespace RowQuery

open Json (Every Writable)

set_option autoImplicit false

/-! ## What a query string tells of its store -/

theorem exists_of_mapM {ε α β : Type} {f : α → Except ε β} {as : List α} {bs : List β}
    (h : as.mapM f = .ok bs) : ∀ a ∈ as, ∃ b ∈ bs, f a = .ok b := by
  induction as generalizing bs with
  | nil => exact nofun
  | cons a as ih =>
    rw [List.mapM_cons] at h
    obtain ⟨b, hb, h⟩ := bind_eq_ok h
    obtain ⟨bs, hbs, h⟩ := bind_eq_ok h
    cases h
    rw [List.forall_mem_cons]
    refine ⟨⟨b, List.mem_cons_self, hb⟩, fun a' ha' => ?_⟩
    obtain ⟨b', hmem, hb'⟩ := ih hbs a' ha'
    exact ⟨b', List.mem_cons_of_mem _ hmem, hb'⟩

theorem Text.isWellFormed_of_chars {t : Text} {cs : List Char} (h : t.chars? = some cs) :
    t.isWellFormed = true := by
  induction t generalizing cs with
  | nil => rfl
  | cons c t ih =>
    cases c with
    | lone => cases h
    | scalar c =>
      obtain ⟨ds, hds, -⟩ := Option.map_eq_some_iff.1 h
      exact ih hds

/-- Only a text without lone surrogate halves is encoded. -/
theorem Form.isWellFormed_of_encodeText {t encoded : Text} (h : encodeText t = .ok encoded) :
    t.isWellFormed = true := by
  obtain ⟨cs, hcs, -⟩ := bind_eq_ok h
  unfold Percent.characters at hcs
  split at hcs
  · next ds hds => exact Text.isWellFormed_of_chars hds
  · cases hcs

namespace Store

/-- Every entry of a store that has a query string has a text without lone surrogate halves. -/
theorem rendered_of_toQueryString {s : Store} {qs : Text} (h : s.toQueryString = .ok qs) :
    ∀ m ∈ s.entries, ∃ t, m.2.render = .ok t ∧ t.isWellFormed = true := by
  obtain ⟨fields, hfields, h⟩ := bind_eq_ok h
  obtain ⟨encoded, hencoded, -⟩ := bind_eq_ok h
  intro m hm
  obtain ⟨f, hf, hrender⟩ := exists_of_mapM hfields m hm
  obtain ⟨field, -, hfield⟩ := exists_of_mapM hencoded f hf
  obtain ⟨t, ht, rfl⟩ := map_eq_ok hrender
  obtain ⟨name, -, hfield⟩ := bind_eq_ok hfield
  obtain ⟨value, hvalue, -⟩ := bind_eq_ok hfield
  exact ⟨t, ht, Form.isWellFormed_of_encodeText hvalue⟩

end Store

/-! ## Slots -/

/-- What an entry is decoded to: the wire forms of row filters, or the text of the entry. -/
def Entry.decoded (e : Entry) : Value :=
  match e with
  | rowFilters fs => .list (RowFilter.toWires fs)
  | e => e.render.toOption.elim .null .text

def Parameters.get? (ps : Parameters) (key : Text) : Option Value :=
  (ps.find? fun p => p.1 = key).map Prod.snd

namespace Slots

/-- The parameters that the query of slots is decoded to. -/
def parameters (slots : Slots) : Parameters :=
  slots.filterMap fun slot => slot.2.map fun e => (slot.1.name, e.decoded)

/-- Slots of distinct parameters, with entries that the parameters may have; the row filters hold JSON
data that can be written. -/
structure Sound (slots : Slots) : Prop where
  distinct : (slots.map Prod.fst).Nodup
  holds : ∀ slot ∈ slots, ∀ e, slot.2 = some e → slot.1.Holds e
  writable : ∀ slot ∈ slots, ∀ fs, slot.2 = some (.rowFilters fs) →
    RowFilter.AllHold (Every Writable) fs

theorem entries_cons (p : Parameter) (e : Option Entry) (slots : Slots) :
    entries ((p, e) :: slots) = (e.map fun e => (.text p.name, e)).toList ++ slots.entries := by
  cases e <;> rfl

theorem parameters_cons (p : Parameter) (e : Option Entry) (slots : Slots) :
    parameters ((p, e) :: slots) = (e.map fun e => (p.name, e.decoded)).toList ++ slots.parameters := by
  cases e <;> rfl

theorem mem_entries {slots : Slots} {p : Parameter} {e : Entry} (h : (p, some e) ∈ slots) :
    (.text p.name, e) ∈ slots.entries := List.mem_filterMap.2 ⟨_, h, rfl⟩

/-- Every decoded parameter comes from a slot of its name. -/
theorem name_of_mem_parameters {slots : Slots} {q : Text × Value} (h : q ∈ slots.parameters) :
    ∃ p ∈ slots.map Prod.fst, q.1 = p.name := by
  obtain ⟨⟨p, e⟩, hslot, he⟩ := List.mem_filterMap.1 h
  obtain ⟨e, -, rfl⟩ := Option.map_eq_some_iff.1 he
  exact ⟨p, List.mem_map_of_mem hslot, rfl⟩

/-- What a slot is decoded to is found under the name of its parameter. -/
theorem get?_parameters {slots : Slots} (hd : (slots.map Prod.fst).Nodup) {p : Parameter}
    {e : Option Entry} (h : (p, e) ∈ slots) :
    Parameters.get? (parameters slots) p.name = e.map Entry.decoded := by
  induction slots with
  | nil => cases h
  | cons slot slots ih =>
    obtain ⟨q, old⟩ := slot
    obtain ⟨hq, htail⟩ := List.nodup_cons.1 hd
    rw [parameters_cons]
    rcases List.mem_cons.1 h with he | h
    · cases he
      have hrest : Parameters.get? (parameters slots) p.name = none := by
        unfold Parameters.get?
        rw [Option.map_eq_none_iff, List.find?_eq_none]
        intro r hr hname
        obtain ⟨p', hp', hr'⟩ := name_of_mem_parameters hr
        have hsame : r.1 = p.name := by simpa using hname
        exact hq (Parameter.name_injective (hr'.symm.trans hsame) ▸ hp')
      cases e with
      | none => exact hrest
      | some e => simp [Parameters.get?]
    · have hne : q.name ≠ p.name := fun hname => by
        obtain rfl := Parameter.name_injective hname
        exact hq (List.mem_map.2 ⟨_, h, rfl⟩)
      have hrest := ih htail h
      cases old with
      | none => exact hrest
      | some old =>
        rw [← hrest]
        simp [Parameters.get?, hne]

/-- The entry of a slot is found under its parameter. -/
theorem get?_toStore {slots : Slots} (hd : (slots.map Prod.fst).Nodup) {p : Parameter}
    {e : Option Entry} (h : (p, e) ∈ slots) : slots.toStore.get? (.text p.name) = e := by
  change Store.findEntry? (entries slots) (.text p.name) = e
  induction slots with
  | nil => cases h
  | cons slot slots ih =>
    obtain ⟨q, old⟩ := slot
    obtain ⟨hq, htail⟩ := List.nodup_cons.1 hd
    rw [entries_cons]
    rcases List.mem_cons.1 h with he | h
    · cases he
      have hlacks : Lacks slots p := fun slot hslot hp => hq (List.mem_map.2 ⟨slot, hslot, hp⟩)
      have hrest : Store.findEntry? (entries slots) (.text p.name) = none := by
        rw [Store.findEntry?, Option.map_eq_none_iff, List.find?_eq_none]
        exact fun m hm => by simp [hlacks.sameKey m hm]
      cases e with
      | none => exact hrest
      | some e => simp [Store.findEntry?]
    · have hne : q.name ≠ p.name := fun hname => by
        obtain rfl := Parameter.name_injective hname
        exact hq (List.mem_map.2 ⟨_, h, rfl⟩)
      have hrest := ih htail h
      cases old with
      | none => exact hrest
      | some old =>
        change Store.findEntry? ((Value.text q.name, old) :: entries slots) _ = e
        rw [Store.findEntry?_cons, if_neg (by simp [hne])]
        exact hrest

theorem nodup_parameters {slots : Slots} (hd : (slots.map Prod.fst).Nodup) :
    (slots.parameters.map Prod.fst).Nodup := by
  induction slots with
  | nil => exact List.nodup_nil
  | cons slot slots ih =>
    obtain ⟨p, e⟩ := slot
    obtain ⟨hp, htail⟩ := List.nodup_cons.1 hd
    rw [parameters_cons]
    cases e with
    | none => exact ih htail
    | some e =>
      refine List.nodup_cons.2 ⟨fun hmem => ?_, ih htail⟩
      obtain ⟨r, hr, hname⟩ := List.mem_map.1 hmem
      obtain ⟨p', hp', hr'⟩ := name_of_mem_parameters hr
      exact hp (Parameter.name_injective (hr'.symm.trans hname) ▸ hp')

theorem isWellFormed_name (p : Parameter) : p.name.isWellFormed = true := by
  cases p <;> exact Text.isWellFormed_ofString _

/-- An entry that its parameter may have is read back from its text. -/
theorem sends_of_holds {p : Parameter} {e : Entry} (hp : p.Holds e)
    (hfilters : ∀ fs, e = .rowFilters fs → RowFilter.AllHold (Every Writable) fs) {t : Text}
    (ht : e.render = .ok t) (hwell : t.isWellFormed = true) :
    Store.Sends Parameter.filters.name (.text p.name, e) (p.name, e.decoded) := by
  have hdecoded : e.kind ≠ .rowFilters → e.decoded = .text t := by
    intro hkind
    cases e with
    | rowFilters => exact absurd rfl hkind
    | scalar | commaList =>
      unfold Entry.decoded
      dsimp only
      rw [ht]
      rfl
  refine ⟨rfl, isWellFormed_name p, t, ht, hwell, ?_⟩
  by_cases hname : p = .filters
  · subst hname
    cases e with
    | scalar | commaList => exact hp.elim
    | rowFilters fs =>
      obtain ⟨t', ht', hread⟩ :=
        Store.readFilters_toWires (hfilters fs rfl) Parameter.filters.name
      cases ht.symm.trans ht'
      exact (if_pos rfl).trans hread
  · have hkind : e.kind ≠ .rowFilters := by
      intro hkind
      cases e with
      | scalar | commaList => cases hkind
      | rowFilters => cases p <;> first | exact hp.elim | exact hname rfl
    rw [hdecoded hkind]
    exact if_neg fun he => hname (Parameter.name_injective he)

/-- Every entry of sound slots is read back from its text, slot by slot. -/
theorem sends_entries {slots : Slots}
    (hholds : ∀ slot ∈ slots, ∀ e, slot.2 = some e → slot.1.Holds e)
    (hwritable : ∀ slot ∈ slots, ∀ fs, slot.2 = some (.rowFilters fs) →
      RowFilter.AllHold (Every Writable) fs)
    (hrendered : ∀ m ∈ slots.entries, ∃ t, m.2.render = .ok t ∧ t.isWellFormed = true) :
    List.Forall₂ (Store.Sends Parameter.filters.name) slots.entries slots.parameters := by
  induction slots with
  | nil => exact .nil
  | cons slot slots ih =>
    obtain ⟨p, e⟩ := slot
    obtain ⟨hp, hholds⟩ := List.forall_mem_cons.1 hholds
    obtain ⟨hfilters, hwritable⟩ := List.forall_mem_cons.1 hwritable
    rw [entries_cons] at hrendered ⊢
    rw [parameters_cons]
    have hrest := ih hholds hwritable fun m hm => hrendered m (List.mem_append_right _ hm)
    cases e with
    | none => exact hrest
    | some e =>
      obtain ⟨t, ht, hwell⟩ := hrendered _ (List.mem_append_left _ List.mem_cons_self)
      exact .cons (sends_of_holds (hp e rfl) (fun fs he => hfilters fs (congrArg some he)) ht hwell)
        hrest

/-- A sound query that has a query string is decoded from it. -/
theorem decode_of_toQueryString {slots : Slots} (hs : slots.Sound) {qs : Text}
    (hqs : slots.toStore.toQueryString = .ok qs) :
    Parameters.decode qs (.text Parameter.filters.name) = .ok slots.parameters := by
  have hsends := sends_entries hs.holds hs.writable (Store.rendered_of_toQueryString hqs)
  obtain ⟨qs', hqs', hps⟩ :=
    Store.decode_of_sends (s := slots.toStore) hsends (nodup_parameters hs.distinct)
  cases hqs.symm.trans hqs'
  exact hps

/-! ## Texts of slots -/

/-- The slots with the texts of their entries. -/
def texts (slots : Slots) : List (Parameter × Option (Except RenderFailure Text)) :=
  slots.map fun slot => (slot.1, slot.2.map Entry.render)

theorem fields_cons (p : Parameter) (e : Option Entry) (slots : Slots) :
    (toStore ((p, e) :: slots)).fields =
      match e.map Entry.render with
      | none => slots.toStore.fields
      | some r => r >>= fun t => slots.toStore.fields.map ((.text p.name, t) :: ·) := by
  cases e with
  | none => rfl
  | some e =>
    have hentries : (toStore ((p, some e) :: slots)).entries =
        (.text p.name, e) :: slots.toStore.entries := rfl
    unfold Store.fields
    rw [hentries, List.mapM_cons]
    simp only [Option.map_some]
    cases e.render with
    | error => rfl
    | ok t => cases slots.toStore.entries.mapM fun e => e.2.render.map fun t => (e.1, t) <;> rfl

/-- The query string depends on the texts of the entries alone. -/
theorem toQueryString_congr {slots slots' : Slots} (h : slots.texts = slots'.texts) :
    slots.toStore.toQueryString = slots'.toStore.toQueryString := by
  have hfields : slots.toStore.fields = slots'.toStore.fields := by
    induction slots generalizing slots' with
    | nil =>
      rw [List.map_eq_nil_iff.1 h.symm]
    | cons slot slots ih =>
      obtain ⟨p, e⟩ := slot
      obtain ⟨⟨q, e'⟩, rest, rfl, hslot, hrest⟩ := List.map_eq_cons_iff.1 h.symm
      obtain ⟨rfl, he⟩ := Prod.mk.inj hslot
      rw [fields_cons, fields_cons, he, ih hrest.symm]
  unfold Store.toQueryString
  rw [hfields]

end Slots

end RowQuery
