import RowQuery.Proofs.Fallible
import RowQuery.Proofs.Store.Reencoding

/-!
# Query strings put together

A query string may be cut at any separator and its halves decoded apart: the parameters of the second half
are laid over those of the first. Only question marks keep this from holding, which are ignored where a
query string starts and nowhere else. A bad row filter parameter fails in whichever half it stands.
-/

namespace RowQuery

set_option autoImplicit false

/-! ## Fields of both halves -/

theorem Text.split_ne_nil (separator : CodePoint) (t : Text) : split separator t ≠ [] := by
  cases t with
  | nil => exact List.cons_ne_nil _ _
  | cons c t =>
    rw [split]
    split
    · exact List.cons_ne_nil _ _
    · split <;> exact List.cons_ne_nil _ _

/-- Where a separator stands between two texts, no piece goes across it. -/
theorem Text.split_append_cons (separator : CodePoint) (a b : Text) :
    split separator (a ++ separator :: b) = split separator a ++ split separator b := by
  induction a with
  | nil => simp [split]
  | cons c a ih =>
    rw [List.cons_append, split, split, ih]
    split
    · rfl
    · cases hpieces : split separator a with
      | nil => exact absurd hpieces (split_ne_nil separator a)
      | cons piece pieces => rfl

theorem Form.decode_append_cons (a : Text) {b : Text} (hb : b.head? ≠ some (.scalar '?')) :
    decode (a ++ .scalar '&' :: b) = decode a ++ decode b := by
  have hfirst : List.dropWhile (fun c => decide (c = CodePoint.scalar '?')) (a ++ .scalar '&' :: b) =
      List.dropWhile (fun c => decide (c = CodePoint.scalar '?')) a ++ .scalar '&' :: b := by
    rw [List.dropWhile_append]
    split
    · next hempty =>
      rw [List.isEmpty_iff.1 hempty]
      rfl
    · rfl
  have hsecond : List.dropWhile (fun c => decide (c = CodePoint.scalar '?')) b = b := by
    cases b with
    | nil => rfl
    | cons c b => exact List.dropWhile_cons_of_neg (by simpa using hb)
  simp only [decode, hfirst, hsecond, Text.split_append_cons, List.filter_append, List.map_append]

namespace Parameters

/-! ## Laying parameters over others -/

/-- Parameters updated with others, in order: a key that both have keeps its place and takes the other
value, and the keys that are new follow. -/
def overlay (ps qs : Parameters) : Parameters :=
  ps.map (fun p => (p.1, (qs.lookup p.1).getD p.2)) ++ qs.filter fun q => q.1 ∉ ps.map Prod.fst

theorem overlay_nil (ps : Parameters) : ps.overlay [] = ps := by
  simp [overlay]

/-- The value of a key after an insertion. -/
theorem lookup_insert (ps : Parameters) (k : Text) (v : Value) (l : Text) :
    (ps.insert k v).lookup l = if l = k then some v else ps.lookup l := by
  induction ps with
  | nil => grind [insert]
  | cons p ps ih =>
    obtain ⟨m, w⟩ := p
    rw [insert]
    split <;> grind

theorem insert_append_of_mem {ps : Parameters} {k : Text} (hk : k ∈ ps.map Prod.fst) (v : Value)
    (qs : Parameters) : insert (ps ++ qs) k v = ps.insert k v ++ qs := by
  induction ps with
  | nil => cases hk
  | cons p ps ih =>
    obtain ⟨l, w⟩ := p
    rw [List.cons_append, insert, insert]
    split
    · rfl
    · next hl =>
      have hk : k ∈ ps.map Prod.fst := (List.mem_cons.1 hk).resolve_left (Ne.symm hl)
      rw [ih hk, List.cons_append]

theorem insert_append_of_notMem {ps : Parameters} {k : Text} (hk : k ∉ ps.map Prod.fst) (v : Value)
    (qs : Parameters) : insert (ps ++ qs) k v = ps ++ qs.insert k v := by
  induction ps with
  | nil => rfl
  | cons p ps ih =>
    obtain ⟨hl, hk⟩ := not_or.1 (mt List.mem_cons.2 hk)
    rw [List.cons_append, insert, if_neg (Ne.symm hl), ih hk, List.cons_append]

/-- Under distinct keys an insertion changes the value of one key. -/
theorem insert_map {ps : Parameters} (hps : (ps.map Prod.fst).Nodup) {k : Text}
    (hk : k ∈ ps.map Prod.fst) (f : Text × Value → Value) (v : Value) :
    insert (ps.map fun p => (p.1, f p)) k v =
      ps.map fun p => (p.1, if p.1 = k then v else f p) := by
  induction ps with
  | nil => cases hk
  | cons p ps ih =>
    obtain ⟨hp, hps⟩ := List.nodup_cons.1 hps
    rw [List.map_cons, List.map_cons, insert]
    split
    · next hl =>
      have hrest : (ps.map fun q => (q.1, f q)) = ps.map fun q => (q.1, if q.1 = k then v else f q) := by
        refine List.map_congr_left fun q hq => ?_
        have hq : q.1 ≠ k := fun he => hp (List.mem_map.2 ⟨q, hq, he.trans hl.symm⟩)
        simp only [hq, if_false]
      rw [hrest]
    · next hl =>
      have hk : k ∈ ps.map Prod.fst := (List.mem_cons.1 hk).resolve_left (Ne.symm hl)
      rw [ih hps hk]

theorem filter_insert {p : Text → Bool} (ps : Parameters) (k : Text) (v : Value) :
    (ps.insert k v).filter (fun q => p q.1) =
      if p k then insert (ps.filter fun q => p q.1) k v else ps.filter fun q => p q.1 := by
  induction ps with
  | nil => cases hk : p k <;> simp [insert, hk]
  | cons q ps ih =>
    obtain ⟨l, w⟩ := q
    rw [insert]
    split
    · next hl => cases hk : p k <;> simp [hl, hk, insert]
    · next hl => cases hk : p k <;> cases hlp : p l <;> simp [hlp, hk, ih, insert, hl]

/-- A parameter that is inserted into the upper ones is inserted into what they are laid over. -/
theorem overlay_insert {ps : Parameters} (hps : (ps.map Prod.fst).Nodup) (qs : Parameters) (k : Text)
    (v : Value) : ps.overlay (qs.insert k v) = (ps.overlay qs).insert k v := by
  have hvalues : (fun p : Text × Value => (p.1, ((qs.insert k v).lookup p.1).getD p.2)) =
      fun p => (p.1, if p.1 = k then v else (qs.lookup p.1).getD p.2) := by
    funext p
    rw [lookup_insert]
    split <;> rfl
  have hkeys : (ps.map fun p => (p.1, (qs.lookup p.1).getD p.2)).map Prod.fst = ps.map Prod.fst := by
    rw [List.map_map]
    rfl
  have hnew := filter_insert (p := fun l => l ∉ ps.map Prod.fst) qs k v
  unfold overlay
  rw [hvalues, hnew]
  by_cases hk : k ∈ ps.map Prod.fst
  · rw [insert_append_of_mem (hkeys ▸ hk), insert_map hps hk]
    simp [hk]
  · have hsame : (ps.map fun p => (p.1, if p.1 = k then v else (qs.lookup p.1).getD p.2)) =
        ps.map fun p => (p.1, (qs.lookup p.1).getD p.2) := by
      refine List.map_congr_left fun p hp => ?_
      have hp : p.1 ≠ k := fun he => hk (List.mem_map.2 ⟨p, hp, he⟩)
      simp only [hp, if_false]
    rw [insert_append_of_notMem (hkeys ▸ hk), hsame]
    simp [hk]

/-! ## Reading both halves -/

/-- One field is read by itself, and what it is read as is inserted. -/
theorem exists_addField (filtersKey : Value) (field : Text × Text) :
    ∃ x : Except Failure Value, FailsOnly (fun e => e.kind = .filterParse) x ∧
      ∀ ps : Parameters, addField filtersKey ps field = x.map fun v => ps.insert field.1 v := by
  by_cases hkey : (Value.text field.1).equal filtersKey = true
  · refine ⟨readFilters field.1 field.2, ?_, fun ps => if_pos hkey⟩
    unfold readFilters
    split
    · exact .of_error rfl
    · exact .of_ok _
    · exact .of_error rfl
  · exact ⟨.ok (.text field.2), .of_ok _, fun ps => if_neg hkey⟩

section Fields

variable {filtersKey : Value} {fields : List (Text × Text)}

/-- Reading fields fails with errors of the reader only. -/
theorem failsOnly_foldlM (ps : Parameters) :
    FailsOnly (fun e => e.kind = .filterParse) (fields.foldlM (addField filtersKey) ps) := by
  induction fields generalizing ps with
  | nil => exact .of_ok ps
  | cons field fields ih =>
    obtain ⟨x, hx, hadd⟩ := exists_addField filtersKey field
    rw [List.foldlM_cons, hadd]
    exact (hx.map _).bind fun ps' _ => ih ps'

theorem distinct_foldlM {ps ps' : Parameters} (hps : (ps.map Prod.fst).Nodup)
    (h : fields.foldlM (addField filtersKey) ps = .ok ps') : (ps'.map Prod.fst).Nodup := by
  induction fields generalizing ps with
  | nil =>
    cases h
    exact hps
  | cons field fields ih =>
    obtain ⟨x, -, hadd⟩ := exists_addField filtersKey field
    rw [List.foldlM_cons, hadd] at h
    cases x with
    | error e => cases h
    | ok v => exact ih (distinct_insert hps _ v) h

/-- Fields that are read after others give what they give alone, laid over the parameters before. -/
theorem foldlM_overlay {ps : Parameters} (hps : (ps.map Prod.fst).Nodup) (qs : Parameters) :
    fields.foldlM (addField filtersKey) (ps.overlay qs) =
      (fields.foldlM (addField filtersKey) qs).map ps.overlay := by
  induction fields generalizing qs with
  | nil => rfl
  | cons field fields ih =>
    obtain ⟨x, -, hadd⟩ := exists_addField filtersKey field
    rw [List.foldlM_cons, List.foldlM_cons, hadd, hadd]
    cases x with
    | error e => rfl
    | ok v =>
      have hstep : (ps.overlay qs).insert field.1 v = ps.overlay (qs.insert field.1 v) :=
        (overlay_insert hps qs _ v).symm
      change fields.foldlM (addField filtersKey) ((ps.overlay qs).insert field.1 v) =
        (fields.foldlM (addField filtersKey) (qs.insert field.1 v)).map ps.overlay
      rw [hstep, ih]

end Fields

/-- Two query strings with a separator between them, the second of which starts with no question mark, are
decoded to the parameters of the second laid over those of the first. It fails where one of them does,
with the failure of the first one that does: a row filter parameter that cannot be parsed, even if a later
one would replace it. -/
theorem decode_append_separator (a : Text) {b : Text} (hb : b.head? ≠ some (.scalar '?'))
    (filtersKey : Value) :
    decode (a ++ .scalar '&' :: b) filtersKey =
      (do
        let ps ← decode a filtersKey
        let qs ← decode b filtersKey
        pure (ps.overlay qs)) ∧
    FailsOnly (fun e => e.kind = .filterParse) (decode (a ++ .scalar '&' :: b) filtersKey) := by
  refine ⟨?_, failsOnly_foldlM []⟩
  unfold decode
  rw [Form.decode_append_cons a hb, List.foldlM_append]
  cases ha : (Form.decode a).foldlM (addField filtersKey) [] with
  | error e => rfl
  | ok ps =>
    have hnone : (([] : Parameters).map Prod.fst).Nodup := List.nodup_nil
    have hps : (ps.map Prod.fst).Nodup := distinct_foldlM hnone ha
    have hrest : (Form.decode b).foldlM (addField filtersKey) (ps.overlay []) =
        ((Form.decode b).foldlM (addField filtersKey) []).map ps.overlay := foldlM_overlay hps []
    rw [overlay_nil] at hrest
    refine Eq.trans hrest ?_
    cases (Form.decode b).foldlM (addField filtersKey) [] <;> rfl

/-- Half a query string with question marks in front of it, an empty field and a name without a value. -/
def firstHalf : Text := "??a=1&&filters=[0]&b"

/-- Half a query string that repeats two names, with an escape that is none. -/
def secondHalf : Text := "filters=[]&a=x=?&c=%"

/-- Half a query string whose row filters are no JSON text. -/
def brokenHalf : Text := "filters=[0"

/-- The repeated names keep their places and take the values of the second half, unless the first half
cannot be read. -/
theorem decode_append_separator_repeatedNames :
    secondHalf.head? ≠ some (.scalar '?') ∧
    decode (firstHalf ++ .scalar '&' :: secondHalf) (.text "filters") =
      .ok [("a", .text "x=?"), ("filters", .list []), ("b", .text ""), ("c", .text "%")] ∧
    decode (brokenHalf ++ .scalar '&' :: secondHalf) (.text "filters") =
      .error (.filter (.badParameter "filters" "[0" (.malformed .expectingComma ⟨1, 3, 2⟩))) := by
  have hb : secondHalf.head? ≠ some (.scalar '?') := by decide
  have hfirst : decode firstHalf (.text "filters") =
      .ok [("a", .text "1"), ("filters", .list [.int 0]), ("b", .text "")] := by
    unfold decode
    rw [funext₂ (addField_eq "filters")]
    cbv
  have hsecond : decode secondHalf (.text "filters") =
      .ok [("filters", .list []), ("a", .text "x=?"), ("c", .text "%")] := by
    unfold decode
    rw [funext₂ (addField_eq "filters")]
    cbv
  have hbroken : decode brokenHalf (.text "filters") =
      .error (.filter (.badParameter "filters" "[0" (.malformed .expectingComma ⟨1, 3, 2⟩))) := by
    unfold decode
    rw [funext₂ (addField_eq "filters")]
    cbv
  refine ⟨hb, ?_, ?_⟩
  · rw [(decode_append_separator firstHalf hb (.text "filters")).1, hfirst, hsecond]
    rfl
  · rw [(decode_append_separator brokenHalf hb (.text "filters")).1, hbroken]
    rfl

end Parameters

end RowQuery
