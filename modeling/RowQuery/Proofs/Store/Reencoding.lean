import Mathlib
import RowQuery.Proofs.Json.Atoms
import RowQuery.Proofs.Json.Conditions
import RowQuery.Proofs.Store.RoundTrip
import RowQuery.Proofs.Url.WellFormed

/-!
# Decoded parameters written back

The reader of query strings is lenient, but what it makes of any of them is what a store can hold: the
keys are distinct texts, the row filters are settled data whose integers have a text, and everything else
is a text. Main statement: decoded parameters that are written into a new store are decoded from its
query string again.
-/

namespace RowQuery

open RowQuery.Action (effect)
open Json (EveryItem SettledItems Short toValues)

set_option autoImplicit false

namespace Parameters

/-- A parameter that the reader makes: JSON data under the key of the row filters, a text under any
other key. -/
inductive IsRead (filtersKey : Text) : Text × Value → Prop
  | text {k t : Text} (hne : k ≠ filtersKey) (hk : k.isWellFormed = true)
      (ht : t.isWellFormed = true) : IsRead filtersKey (k, .text t)
  | filters {js : List Json} (hk : filtersKey.isWellFormed = true) (hs : SettledItems js)
      (hshort : EveryItem Short js) : IsRead filtersKey (filtersKey, .list (toValues js))

/-- Parameters that the reader makes: each as it can be read, under distinct keys. -/
structure AreRead (filtersKey : Text) (ps : Parameters) : Prop where
  distinct : (ps.map Prod.fst).Nodup
  read : ∀ p ∈ ps, IsRead filtersKey p

/-! ## What is read -/

theorem isRead_readFilters {key raw : Text} {v : Value} (hk : key.isWellFormed = true)
    (h : readFilters key raw = .ok v) : IsRead key (key, v) := by
  unfold readFilters at h
  split at h
  · cases h
  · next items hitems =>
    cases h
    exact .filters hk (Json.settled_read hitems) (Json.short_read hitems)
  · cases h

/-- A field is read as a parameter that the reader can make. -/
theorem isRead_readField {filtersKey : Text} {f : Text × Text} {v : Value}
    (hf : f.1.isWellFormed = true ∧ f.2.isWellFormed = true)
    (h : readField filtersKey f = .ok v) : IsRead filtersKey (f.1, v) := by
  unfold readField at h
  split at h
  · next hkey =>
    obtain ⟨k, raw⟩ := f
    obtain rfl : k = filtersKey := hkey
    exact isRead_readFilters hf.1 h
  · next hkey =>
    cases h
    exact .text hkey hf.1 hf.2

theorem mem_insert {ps : Parameters} {k : Text} {v : Value} {p : Text × Value}
    (h : p ∈ ps.insert k v) : p = (k, v) ∨ p ∈ ps := by
  induction ps with
  | nil => exact .inl (List.mem_singleton.1 h)
  | cons q ps ih =>
    obtain ⟨l, w⟩ := q
    rw [insert] at h
    split at h
    · next hl =>
      rcases List.mem_cons.1 h with rfl | h
      · exact .inl (by rw [hl])
      · exact .inr (List.mem_cons_of_mem _ h)
    · rcases List.mem_cons.1 h with rfl | h
      · exact .inr List.mem_cons_self
      · exact (ih h).imp_right (List.mem_cons_of_mem _)

theorem distinct_insert {ps : Parameters} (h : (ps.map Prod.fst).Nodup) (k : Text) (v : Value) :
    ((ps.insert k v).map Prod.fst).Nodup := by
  induction ps with
  | nil => simp [insert]
  | cons q ps ih =>
    obtain ⟨l, w⟩ := q
    obtain ⟨hl, hps⟩ := List.nodup_cons.1 h
    rw [insert]
    split
    · next hkey => exact h
    · next hkey =>
      refine List.nodup_cons.2 ⟨fun hmem => ?_, ih hps⟩
      obtain ⟨p, hp, he⟩ := List.mem_map.1 hmem
      rcases mem_insert hp with rfl | hp
      · exact hkey he.symm
      · exact hl (List.mem_map.2 ⟨p, hp, he⟩)

/-- One more field keeps the parameters as the reader makes them. -/
theorem AreRead.addField {filtersKey : Text} {ps ps' : Parameters} (hps : AreRead filtersKey ps)
    {f : Text × Text} (hf : f.1.isWellFormed = true ∧ f.2.isWellFormed = true)
    (h : addField (.text filtersKey) ps f = .ok ps') : AreRead filtersKey ps' := by
  rw [addField_eq] at h
  obtain ⟨v, hv, rfl⟩ := map_eq_ok h
  refine ⟨distinct_insert hps.distinct _ _, fun p hp => ?_⟩
  rcases mem_insert hp with rfl | hp
  · exact isRead_readField hf hv
  · exact hps.read p hp

theorem AreRead.foldlM {filtersKey : Text} {fields : List (Text × Text)} {ps ps' : Parameters}
    (hps : AreRead filtersKey ps)
    (hf : ∀ f ∈ fields, f.1.isWellFormed = true ∧ f.2.isWellFormed = true)
    (h : fields.foldlM (Parameters.addField (.text filtersKey)) ps = .ok ps') :
    AreRead filtersKey ps' := by
  induction fields generalizing ps with
  | nil =>
    cases h
    exact hps
  | cons f fields ih =>
    rw [List.foldlM_cons] at h
    cases hadd : Parameters.addField (.text filtersKey) ps f with
    | error e =>
      rw [hadd] at h
      cases h
    | ok next =>
      rw [hadd] at h
      exact ih (hps.addField (hf f List.mem_cons_self) hadd)
        (fun g hg => hf g (List.mem_cons_of_mem _ hg)) h

/-- Whatever query string is decoded, the reader makes nothing else of it. -/
theorem areRead_of_decode {filtersKey qs : Text} {ps : Parameters} (hqs : qs.isWellFormed = true)
    (h : decode qs (.text filtersKey) = .ok ps) : AreRead filtersKey ps := by
  have hnone : AreRead filtersKey [] := ⟨List.nodup_nil, nofun⟩
  exact hnone.foldlM (Form.isWellFormed_of_mem_decode hqs) h

/-! ## Writing back -/

/-- Writes parameters into a store, in order. -/
def write (ps : Parameters) : Action Store Unit :=
  Action.forEach (fun p => Store.set (.text p.1) p.2) ps

/-- The entry that a parameter becomes. -/
def toEntry (p : Text × Value) : Value × Entry := (.text p.1, .scalar p.2)

/-- A parameter that the reader makes may be written as a scalar. -/
theorem IsRead.isScalar {filtersKey : Text} {p : Text × Value} (h : IsRead filtersKey p) :
    Store.isScalar p.2.normalize = true ∧ p.2.normalize = p.2 := by
  cases h with
  | text | filters => exact ⟨rfl, rfl⟩

/-- Parameters under new and distinct keys are all written, one after the other. -/
theorem effect_write {filtersKey : Text} {ps : Parameters} (hps : AreRead filtersKey ps)
    (hfinite : ∀ p ∈ ps, p.2.isFinite = true) {s : Store}
    (hnew : ∀ m ∈ s.entries, ∀ p ∈ ps, m.1.sameKey (.text p.1) = false) :
    effect (write ps) s = (.ok (), ⟨s.rowFilterKey, s.entries ++ ps.map toEntry⟩) := by
  -- The store varies: what is written joins the entries that the rest must not meet again.
  induction ps generalizing s with
  | nil => simp [write, Action.forEach, effect, Action.pure]
  | cons p ps ih =>
    obtain ⟨hdistinct, hread⟩ := hps
    obtain ⟨hp, hdistinct⟩ := List.nodup_cons.1 hdistinct
    obtain ⟨hscalar, hnormal⟩ := (hread p List.mem_cons_self).isScalar
    have hset : effect (Store.set (.text p.1) p.2) s =
        (.ok (), ⟨s.rowFilterKey, s.entries ++ [toEntry p]⟩) := by
      have hentry := fun m hm => hnew m hm p List.mem_cons_self
      rw [Store.effect_set_text hscalar (hnormal.symm ▸ hfinite p List.mem_cons_self), hnormal,
        Store.put, Store.insertEntry_of_new _ hentry]
      rfl
    have hrest := @ih ⟨hdistinct, fun q hq => hread q (List.mem_cons_of_mem _ hq)⟩
      (fun q hq => hfinite q (List.mem_cons_of_mem _ hq))
      ⟨s.rowFilterKey, s.entries ++ [toEntry p]⟩ fun m hm q hq => by
        rcases List.mem_append.1 hm with hm | hm
        · exact hnew m hm q (List.mem_cons_of_mem _ hq)
        · rw [List.mem_singleton.1 hm, toEntry, Value.sameKey_text]
          exact decide_eq_false fun he => hp (he ▸ List.mem_map_of_mem hq)
    change effect (Store.set (.text p.1) p.2 >>= fun _ => write ps) s = _
    rw [Action.effect_bind, hset, Action.andThen_ok, hrest, List.append_assoc]
    rfl

/-- A parameter that was read is read again from the text of its entry. -/
theorem IsRead.sends {filtersKey : Text} {p : Text × Value} (h : IsRead filtersKey p)
    (hfinite : p.2.isFinite = true) (hwell : p.2.isWellFormed = true) :
    Store.Sends filtersKey (toEntry p) p := by
  cases h with
  | @text k t hne hk ht => exact ⟨rfl, hk, t, rfl, ht, if_neg hne⟩
  | @filters js hk hs hshort =>
    have hwritable : (Json.array js).Every Json.Writable :=
      Json.writable_of_short (j := .array js) hshort hfinite
    have hatoms : (Json.array js).Every Json.WellFormedAtom :=
      (Json.isWellFormed_toValue (.array js)).1 hwell
    have hread : Json.read (Json.render Json.wire (.array js)) = .ok (.array js) :=
      Json.read_render hs hwritable
    refine ⟨rfl, hk, Json.render Json.wire (.array js), ?_, ?_, ?_⟩
    · exact Json.toJsonText_toValue hwritable
    · exact (Json.isWellFormed_renderAt Json.isVerbatim_wire 0 _).2 hatoms
    · unfold readField readFilters
      rw [if_pos rfl, hread]
      rfl

/-- What any query string is decoded to can be written into a new store, parameter by parameter, and is
decoded again from the query string of that store: the same keys in the same order, with the same
values. -/
theorem decode_write {filtersKey qs : Text} {ps : Parameters} (hqs : qs.isWellFormed = true)
    (hps : decode qs (.text filtersKey) = .ok ps)
    (hfilters : ∀ v, (filtersKey, v) ∈ ps → v.isFinite = true ∧ v.isWellFormed = true)
    (storeKey : Text) :
    ∃ s qs', effect (write ps) (Store.empty storeKey) = (.ok (), s) ∧ s.toQueryString = .ok qs' ∧
      decode qs' (.text filtersKey) = .ok ps := by
  have hread := areRead_of_decode hqs hps
  have hvalues : ∀ p ∈ ps, p.2.isFinite = true ∧ p.2.isWellFormed = true := by
    intro p hp
    cases hread.read p hp with
    | text _ _ ht => exact ⟨rfl, ht⟩
    | filters => exact hfilters _ hp
  have hsends : List.Forall₂ (Store.Sends filtersKey) (ps.map toEntry) ps := by
    rw [List.forall₂_map_left_iff, List.forall₂_same]
    exact fun p hp => (hread.read p hp).sends (hvalues p hp).1 (hvalues p hp).2
  have hwrite := effect_write hread (fun p hp => (hvalues p hp).1) (s := Store.empty storeKey) nofun
  obtain ⟨qs', hqs', hps'⟩ :=
    Store.decode_of_sends (s := ⟨storeKey, ps.map toEntry⟩) hsends hread.distinct
  exact ⟨_, qs', hwrite, hqs', hps'⟩

/-- A query string that no store has: question marks in front, an empty field, a blank name, a repeated
name, bad escapes, octets that are no character, and a repeated key in the JSON text. -/
def lenientQuery : Text :=
  "??a=1&&=x&b&a=%zz%FF+&filters=[\x7b\"k\":1,\"k\":[true,\"\\u00fc\"]\x7d , -2]"

def lenientParameters : Parameters :=
  [("a", .text "%zz\uFFFD "), ("", .text "x"), ("b", .text ""),
    ("filters", .list [.mapping [(.text "k", .list [.bool true, .text "ü"])], .int (-2)])]

theorem decode_write_lenientParameters :
    ∃ s qs', effect (write lenientParameters) (Store.empty "filters") = (.ok (), s) ∧
      s.toQueryString = .ok qs' ∧ decode qs' (.text "filters") = .ok lenientParameters := by
  have hdecode : decode lenientQuery (.text "filters") = .ok lenientParameters := by
    unfold decode
    rw [funext₂ (addField_eq "filters")]
    cbv
  have hquery : lenientQuery.isWellFormed = true := rfl
  refine decode_write hquery hdecode (fun v hv => ?_) "filters"
  have hvalue : v = .list [.mapping [(.text "k", .list [.bool true, .text "ü"])], .int (-2)] := by
    simpa [lenientParameters, Text.ofString, Text.ofChars] using hv
  rw [hvalue]
  exact ⟨rfl, rfl⟩

end Parameters

end RowQuery
