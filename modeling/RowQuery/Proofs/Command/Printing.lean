import RowQuery.Command.Run
import RowQuery.Proofs.Action
import RowQuery.Proofs.Json.Conditions
import RowQuery.Proofs.Options.Decoding
import RowQuery.Proofs.Text.Pieces
import RowQuery.Proofs.Url.ReadPath

/-!
# Printing queries

What a query is printed as, once it has a query string: the query string itself, the JSON text of its
parameters, or a URL. A URL also needs a table without lone surrogate halves, and the stream must take the
line.
-/

namespace RowQuery

open RowQuery.Action (effect)
open Json (Every EveryItem EveryMember Writable WellFormedAtom)

set_option autoImplicit false

/-! ## Parameters as JSON data -/

/-- What an entry with a text is decoded to is JSON data that can be printed. -/
theorem Entry.exists_json_decoded {e : Entry} {t : Text}
    (hfilters : ∀ fs, e = .rowFilters fs → RowFilter.AllHold (Json.Every Writable) fs)
    (ht : e.render = .ok t) (hwell : t.isWellFormed = true) :
    ∃ j : Json, e.decoded = j.toValue ∧ j.Every Writable ∧ j.Every WellFormedAtom := by
  cases e with
  | scalar | commaList =>
    refine ⟨.text t, ?_, ⟨trivial, trivial⟩, hwell⟩
    unfold decoded
    dsimp only
    rw [ht]
    rfl
  | rowFilters fs =>
    obtain ⟨js, -, hw, hwire⟩ :=
      RowFilter.exists_jsons (fun _ => ⟨trivial, trivial⟩) fs (hfilters fs rfl)
    have hrender : (Value.list (RowFilter.toWires fs)).toJsonText =
        .ok (Json.render Json.wire (.array js)) := by
      rw [hwire]
      exact Json.toJsonText_toValue (j := .array js) hw
    cases ht.symm.trans hrender
    exact ⟨.array js, congrArg Value.list hwire, hw,
      (Json.isWellFormed_renderAt Json.isVerbatim_wire 0 (.array js)).1 hwell⟩

namespace Slots

/-- The entries of slots are decoded to members that can be printed. -/
theorem exists_json_members {slots : Slots}
    (hwritable : ∀ slot ∈ slots, ∀ fs, slot.2 = some (.rowFilters fs) →
      RowFilter.AllHold (Json.Every Writable) fs)
    (hrendered : ∀ m ∈ slots.entries, ∃ t, m.2.render = .ok t ∧ t.isWellFormed = true) :
    ∃ ms : List (Text × Json),
      slots.parameters.map (fun p => (Value.text p.1, p.2)) = Json.toMembers ms ∧
        EveryMember Writable ms ∧ EveryMember WellFormedAtom ms := by
  induction slots with
  | nil => exact ⟨[], rfl, trivial, trivial⟩
  | cons slot slots ih =>
    obtain ⟨p, e⟩ := slot
    obtain ⟨hfilters, hwritable⟩ := List.forall_mem_cons.1 hwritable
    rw [entries_cons] at hrendered
    rw [parameters_cons]
    obtain ⟨ms, hms, hw, hwell⟩ :=
      ih hwritable fun m hm => hrendered m (List.mem_append_right _ hm)
    cases e with
    | none => exact ⟨ms, hms, hw, hwell⟩
    | some e =>
      obtain ⟨t, ht, htext⟩ := hrendered _ (List.mem_append_left _ List.mem_cons_self)
      obtain ⟨j, hj, hjw, hjwell⟩ := Entry.exists_json_decoded
        (fun fs he => hfilters fs (congrArg some he)) ht htext
      refine ⟨(p.name, j) :: ms, ?_, ⟨⟨trivial, trivial⟩, hjw, hw⟩,
        ⟨isWellFormed_name p, hjwell, hwell⟩⟩
      change (Value.text p.name, e.decoded) :: (parameters slots).map _ = _
      rw [hj, hms]
      rfl

/-- The parameters of a sound query that has a query string are JSON data that can be printed. -/
theorem exists_json_parameters {slots : Slots} (hs : slots.Sound) {qs : Text}
    (hqs : slots.toStore.toQueryString = .ok qs) :
    ∃ j : Json, slots.parameters.toValue = j.toValue ∧ j.Every Writable ∧ j.Every WellFormedAtom := by
  obtain ⟨ms, hms, hw, hwell⟩ :=
    exists_json_members hs.writable (Store.rendered_of_toQueryString hqs)
  exact ⟨.object ms, congrArg Value.mapping hms, hw, hwell⟩

end Slots

namespace Command

/-! ## Printing -/

namespace Stream

/-- What a line that is printed leads to: the stream takes it, or refuses it with a failure. -/
def after (stream : Stream) (line : Text) (p : Printed) : Except Failure Unit × Printed :=
  match stream.refusal line with
  | none => (.ok (), { p with output := p.output ++ line })
  | some e => (.error e, p)

/-- Without the escape character there is no control sequence to drop. -/
theorem shown_of_notMem (stream : Stream) {t : Text} (h : .escape ∉ t) : stream.shown t = t := by
  unfold shown
  rw [Text.dropControls_of_notMem h, ite_self]

theorem isWellFormed_shown (stream : Stream) {t : Text} (h : t.isWellFormed = true) :
    (stream.shown t).isWellFormed = true := by
  unfold shown
  split
  · exact h
  · exact Text.isWellFormed_dropControls h

/-- A stream in UTF-8 takes every text without lone surrogate halves. -/
theorem refusal_utf8 {t : Text} (h : t.isWellFormed = true) : utf8.refusal t = none := by
  obtain ⟨cs, rfl⟩ := RowQuery.Form.exists_chars h
  unfold utf8 Percent.characters
  dsimp only
  rw [Text.chars?_ofChars]

end Stream

theorem effect_print (stream : Stream) (t : Text) (p : Printed) :
    effect (print stream t) p = stream.after (stream.shown t ++ [.scalar '\n']) p := by
  unfold effect print Stream.after
  dsimp only
  cases stream.refusal (stream.shown t ++ [.scalar '\n']) <;> rfl

theorem effect_onStore {α : Type} (s : Store) (x : Action Store α) (p : Printed) :
    effect (onStore s x) p = ((effect x s).1.map fun a => (a, (effect x s).2), p) := rfl

/-- The table of a request: the one that is given, or the one of the settings. -/
def tableInEffect (settings : Settings) (table : Option Text) : Text :=
  match table with
  | none => settings.defaultTable
  | some t => if t.isEmpty then settings.defaultTable else t

/-- The settings locate a request: where no table is given the default table has a name, without a lone
surrogate half in it. -/
structure Locates (settings : Settings) (table : Option Text) : Prop where
  named : table.getD [] = [] → settings.defaultTable ≠ []
  table : table.getD [] = [] → settings.defaultTable.isWellFormed = true

/-- What a query string is printed as, in each form. -/
inductive Prints (stream : Stream) (settings : Settings) (table : Option Text) (queryString : Text) :
    Form → Text → Prop
  | queryString : Prints stream settings table queryString .queryString queryString
  /-- The decoded parameters as indented JSON text. -/
  | json {ps : Parameters} {j : Json}
      (hdecode : Parameters.decode queryString (.text Parameter.filters.name) = .ok ps)
      (hj : ps.toValue = j.toValue) :
      Prints stream settings table queryString .json (Json.render Json.indented j)
  /-- Control sequences in the base URL are printed on a terminal only. -/
  | url {encoded : Text} (hencoded : Percent.encode (tableInEffect settings table) = .ok encoded) :
      Prints stream settings table queryString .url (stream.shown
        (ReadPath.trimBase settings.baseUrl ++ .scalar '/' :: ReadPath.join encoded queryString))

section Tables

variable {settings : Settings} {table : Option Text} (h : Locates settings table)
include h

theorem Locates.nonempty : tableInEffect settings table ≠ [] := by
  cases table with
  | none => exact h.named rfl
  | some t =>
    cases t with
    | nil => exact h.named rfl
    | cons => exact List.cons_ne_nil _ _

theorem Locates.isWellFormed (hgiven : ∀ t, table = some t → t.isWellFormed = true) :
    (tableInEffect settings table).isWellFormed = true := by
  cases table with
  | none => exact h.table rfl
  | some t =>
    cases t with
    | nil => exact h.table rfl
    | cons => exact hgiven _ rfl

end Tables

/-- The table of a request is the given one, or else the one of the settings. -/
theorem orElse_table (settings : Settings) (table : Option Text) :
    ReadPath.orElse (table.elim .null .text) settings.defaultTable =
      .text (tableInEffect settings table) := by
  cases table with
  | none => rfl
  | some t => cases t <;> rfl

/-- A query that has a query string has a URL, once the table is encoded. -/
theorem effect_url {settings : Settings} {table : Option Text} {s : Store} {qs encoded : Text}
    (hne : tableInEffect settings table ≠ []) (hqs : s.toQueryString = .ok qs)
    (hencoded : Percent.encode (tableInEffect settings table) = .ok encoded) :
    effect (ReadPath.url settings (table.elim .null .text) .null) s =
      (.ok (ReadPath.trimBase settings.baseUrl ++ .scalar '/' :: ReadPath.join encoded qs), s) := by
  have htruthy : (Value.text (tableInEffect settings table)).isTruthy = true := by
    simpa [Value.isTruthy] using hne
  have htable : ReadPath.encodeTable (.text (tableInEffect settings table)) = .ok encoded := by
    simp [ReadPath.encodeTable, Value.text?, hencoded, Except.mapError]
  have hbase : ReadPath.checkBase (ReadPath.orElse .null settings.baseUrl) =
      .ok (ReadPath.trimBase settings.baseUrl) := rfl
  have hpath : effect (ReadPath.path (.text (tableInEffect settings table))) s =
      (.ok (ReadPath.join encoded qs), s) := by
    simp [ReadPath.path, htruthy, htable, Store.effect_rendered hqs]
  simp [ReadPath.url, orElse_table, hbase, hpath]

theorem isWellFormed_url {base table qs : Text} (hbase : base.isWellFormed = true)
    (htable : table.isWellFormed = true) (hqs : qs.isWellFormed = true) :
    Text.isWellFormed (ReadPath.trimBase base ++ .scalar '/' :: ReadPath.join table qs) = true := by
  have htrim : (ReadPath.trimBase base).isWellFormed = true := Text.isWellFormed_dropEndWhile _ hbase
  unfold ReadPath.join
  split <;> simp [htrim, htable, hqs]

/-- A query that has a query string is printed in every form; for a URL the settings must locate it. There
is no lone surrogate half in what is printed, unless the base URL brings one in. -/
theorem effect_printQuery {stream : Stream} {settings : Settings} {table : Option Text} {form : Form}
    {slots : Slots} {qs : Text} (hs : slots.Sound) (hqs : slots.toStore.toQueryString = .ok qs)
    (htable : ∀ t, table = some t → t.isWellFormed = true)
    (hurl : form = .url → Locates settings table) (p : Printed) :
    ∃ t, Prints stream settings table qs form t ∧
      (settings.baseUrl.isWellFormed = true → t.isWellFormed = true) ∧
      effect (printQuery stream settings (table.elim .null .text) form qs slots.toStore) p =
        stream.after (t ++ [.scalar '\n']) p := by
  have hwell := Store.isWellFormed_of_toQueryString hqs
  cases form with
  | queryString =>
    refine ⟨qs, .queryString, fun _ => hwell, ?_⟩
    have hprint := effect_print stream qs p
    rw [stream.shown_of_notMem (Store.escape_notMem_of_toQueryString hqs)] at hprint
    exact hprint
  | url =>
    have hlocates := hurl rfl
    obtain ⟨cs, hencoded, -⟩ := Percent.exists_escaped (hlocates.isWellFormed htable)
    refine ⟨_, .url hencoded, fun hbase => ?_, ?_⟩
    · exact stream.isWellFormed_shown (isWellFormed_url hbase (Text.isWellFormed_ofChars cs) hwell)
    · rw [← effect_print stream _ p]
      unfold printQuery
      rw [Action.effect_bind, effect_onStore, effect_url hlocates.nonempty hqs hencoded]
      rfl
  | json =>
    have hdecode := Slots.decode_of_toQueryString hs hqs
    obtain ⟨j, hj, hw, hatoms⟩ := Slots.exists_json_parameters hs hqs
    have hline : (Json.render Json.indented j).isWellFormed = true :=
      (Json.isWellFormed_renderAt Json.isVerbatim_indented 0 j).2 hatoms
    have hplain : .escape ∉ Json.render Json.indented j := Json.escape_notMem_renderAt 0 j
    have hprint := effect_print stream (Json.render Json.indented j) p
    rw [stream.shown_of_notMem hplain] at hprint
    refine ⟨_, .json hdecode hj, fun _ => hline, ?_⟩
    have hindented : indentedText (slots.parameters.toValue) =
        Action.lift (.ok (Json.render Json.indented j)) := by
      unfold indentedText
      rw [hj, Json.ofValue_toValue ⟨true, false⟩ j hw]
      rfl
    unfold printQuery
    rw [Action.effect_bind, Action.effect_lift, hdecode, Action.andThen_ok, Action.effect_bind,
      hindented, Action.effect_lift]
    exact hprint

end Command

end RowQuery
