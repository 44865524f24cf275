import RowQuery.Proofs.Options.Encoding
import RowQuery.Proofs.Options.Rebuilding

/-!
# Selections and sorts in normal form

Options may select names in several texts, with blanks around the names and empty pieces between the commas,
and sort without a direction or with one in any case. The query holds the names and the sorts in one form.
Main statement: what this form is, that options which already have it give the same query, and which sorts
are refused.
-/

namespace RowQuery

open RowQuery.Action (gather)

set_option autoImplicit false

namespace Contents

/-- Contents of sorts and names only. -/
def listing (sorts : List (Text × Direction)) (names : List Text) : Contents where
  search := none
  filters := []
  sorts := sorts
  selects := names
  limit := none
  offset := none
  includeCount := false
  threshold := none

theorem get?_listing_select (sorts : List (Text × Direction)) (names : List Text) :
    (listing sorts names).toStore.get? (.text Parameter.select.name) =
      Slots.commaList (names.map .text) :=
  Slots.get?_toStore (nodup_slots _) (by simp [slots, listing])

theorem get?_listing_sort (sorts : List (Text × Direction)) (names : List Text) :
    (listing sorts names).toStore.get? (.text Parameter.sort.name) =
      Slots.commaList (sortTokens sorts) :=
  Slots.get?_toStore (nodup_slots _) (by simp [slots, listing])

end Contents

namespace Options

def selecting (ts : List Text) : Options :=
  { none with exact := .bool false, select := .list (ts.map .text), includeCount := .bool false }

def sorting (ts : List Text) : Options :=
  { none with exact := .bool false, sort := .list (ts.map .text), includeCount := .bool false }

/-! ## Selections -/

/-- The pieces between the commas of texts that are not blank, without the blanks at their ends. -/
def namesIn (ts : List Text) : List Text :=
  ((ts.flatMap (Text.split (.scalar ','))).filter fun piece => !piece.all CodePoint.isBlank).map Text.trim

/-- There are names exactly where some piece is not blank. -/
theorem namesIn_ne_nil {ts : List Text} :
    namesIn ts ≠ [] ↔ ∃ t ∈ ts, ∃ piece ∈ t.split (.scalar ','), piece.all CodePoint.isBlank = false := by
  rw [namesIn, Ne, List.map_eq_nil_iff, List.filter_eq_nil_iff]
  simp only [List.mem_flatMap]
  grind

theorem readSelect_text (t : Text) : readSelect (.text t) = .ok (namesIn [t]) := by
  have hfilter : ∀ pieces : List Text, (pieces.map Text.trim).filter (fun name => !name.isEmpty) =
      (pieces.filter fun piece => !piece.all CodePoint.isBlank).map Text.trim := by
    intro pieces
    rw [List.filter_map]
    exact congrArg (List.map Text.trim)
      (List.filter_congr fun piece _ => congrArg (!·) (Text.isEmpty_trimWhile _ piece))
  rw [namesIn, List.flatMap_singleton, ← hfilter]
  rfl

theorem gather_readSelect (ts : List Text) :
    gather readSelect (ts.map .text) = .ok (namesIn ts) := by
  induction ts with
  | nil => rfl
  | cons t ts ih =>
    have happend : namesIn (t :: ts) = namesIn [t] ++ namesIn ts := by
      simp [namesIn]
    rw [List.map_cons, gather, readSelect_text, ih, happend]
    rfl

theorem contents_selecting (ts : List Text) :
    (selecting ts).contents = .ok (.listing [] (namesIn ts)) := by
  have hselects : readEach readSelect (selecting ts).select = .ok (namesIn ts) :=
    (readEach_list _ _).trans (gather_readSelect ts)
  unfold Options.contents
  rw [hselects]
  rfl

theorem isName_of_mem_namesIn (ts : List Text) : ∀ name ∈ namesIn ts, IsName name :=
  (read_contents (contents_selecting ts)).selects

/-- Names hold no comma, so joining and splitting gives them back. -/
theorem split_join_namesIn {ts : List Text} (hne : namesIn ts ≠ []) :
    (Text.join [.scalar ','] (namesIn ts)).split (.scalar ',') = namesIn ts := by
  have hnames := isName_of_mem_namesIn ts
  obtain ⟨name, names, hlist⟩ := List.exists_cons_of_ne_nil hne
  rw [hlist] at hnames ⊢
  exact Text.split_join fun n hn => (hnames n hn).separator

/-- The names are found again in the text that joins them by commas. -/
theorem namesIn_join {ts : List Text} (hne : namesIn ts ≠ []) :
    namesIn [Text.join [.scalar ','] (namesIn ts)] = namesIn ts := by
  have hnames := isName_of_mem_namesIn ts
  have hread := readSelect_text (Text.join [.scalar ','] (namesIn ts))
  obtain ⟨name, names, hlist⟩ := List.exists_cons_of_ne_nil hne
  rw [hlist] at hnames hread ⊢
  exact (Except.ok.inj ((readSelect_join hnames).symm.trans hread)).symm

theorem build_selecting (ts : List Text) :
    (selecting ts).build.result = .ok () ∧
      (selecting ts).build.state = (Contents.listing [] (namesIn ts)).toStore :=
  build_of_contents (contents_selecting ts)

theorem isSome_select_selecting (ts : List Text) :
    ((selecting ts).build.state.get? (.text Parameter.select.name)).isSome = true ↔ namesIn ts ≠ [] := by
  rw [(build_selecting ts).2, Contents.get?_listing_select, Slots.commaList]
  cases namesIn ts <;> simp

theorem declared_selecting {ts : List Text} (h : ∀ t ∈ ts, t.isWellFormed = true) :
    (selecting ts).Declared where
  search := .inl rfl
  exact := ⟨false, rfl⟩
  limit := .inl rfl
  offset := .inl rfl
  sort := .inl rfl
  select := .inr ⟨_, rfl, List.forall_mem_map.2 fun t ht => ⟨t, rfl, h t ht⟩⟩
  filters := .inl rfl
  circle := .inl rfl
  rect := .inl rfl
  combine := .inl rfl
  includeCount := ⟨false, rfl⟩
  threshold := .inl rfl

/-- The parameter of a selection is decoded to the names, joined by commas. -/
theorem decode_selecting {ts : List Text} (hplain : ∀ t ∈ ts, t.isWellFormed = true)
    (hne : namesIn ts ≠ []) :
    ∃ qs ps, (selecting ts).build.state.toQueryString = .ok qs ∧
      Parameters.decode qs (.text Parameter.filters.name) = .ok ps ∧
      ps.get? Parameter.select.name = some (.text (Text.join [.scalar ','] (namesIn ts))) := by
  have hcontents := contents_selecting ts
  have hread := read_contents hcontents
  have hstate := (build_of_contents hcontents).2
  have hencodes := (Contents.toQueryString_iff hread
    (plain_contents (declared_selecting hplain) hcontents)).1
  obtain ⟨qs, hqs⟩ := hencodes.2 nofun
  have hdecode := Slots.decode_of_toQueryString (Contents.sound_slots hread) hqs
  refine ⟨qs, _, hstate ▸ hqs, hdecode, ?_⟩
  rw [Contents.get?_slots hread (p := .select)
    (e := Slots.commaList ((namesIn ts).map .text)) (by simp [Contents.slots, Contents.listing]),
    ← Contents.decoded_names, Slots.commaList, if_neg (by simpa using hne)]
  rfl

/-! ## Sorts -/

/-- The directions that a sort may spell, when their case is ignored. -/
def spellings : List Text := [[], Direction.asc.wire, Direction.desc.wire]

/-- The direction that a sort asks for. -/
def directionOf (t : Text) : Direction :=
  if (t.after (.scalar ':')).lower = Direction.desc.wire then .desc else .asc

/-- The sort that a text asks for, with its direction spelled out. -/
def sortValue (t : Text) : Text := Query.sortToken (t.before (.scalar ':')) (directionOf t)

theorem readSort_text (t : Text) :
    readSort (.text t) =
      if (t.after (.scalar ':')).lower ∈ spellings then .ok (t.before (.scalar ':'), directionOf t)
      else .error (.argument (.badDirection (t.after (.scalar ':')).lower)) := by
  have hcut : cutText "partition" (.text t) = .ok t := rfl
  unfold readSort
  rw [hcut]
  simp only [Bind.bind, Except.bind, Text.splitFirst_getD]
  unfold directionOf spellings
  generalize (t.after (.scalar ':')).lower = direction
  have hmem : direction ∈ [[], Direction.asc.wire, Direction.desc.wire] ↔
      (direction.isEmpty || decide (direction = Direction.asc.wire)) = true ∨
        direction = Direction.desc.wire := by
    simp [or_assoc]
  have hother : (direction.isEmpty || decide (direction = Direction.asc.wire)) = true →
      direction ≠ Direction.desc.wire := by
    rintro h rfl
    revert h
    decide
  by_cases hasc : (direction.isEmpty || decide (direction = Direction.asc.wire)) = true
  · rw [if_pos hasc, if_pos (hmem.2 (.inl hasc)), if_neg (hother hasc)]
    rfl
  · by_cases hdesc : direction = Direction.desc.wire
    · rw [if_neg hasc, if_pos hdesc, if_pos (hmem.2 (.inr hdesc)), if_pos hdesc]
      rfl
    · rw [if_neg hasc, if_neg hdesc, if_neg (fun h => (hmem.1 h).elim hasc hdesc)]

def sortsIn (ts : List Text) : List (Text × Direction) :=
  ts.map fun t => (t.before (.scalar ':'), directionOf t)

theorem sortTokens_sortsIn (ts : List Text) :
    Contents.sortTokens (sortsIn ts) = (ts.map sortValue).map .text := by
  simp only [Contents.sortTokens, sortsIn, List.map_map]
  rfl

theorem gather_readSort_texts {ts : List Text}
    (h : ∀ t ∈ ts, (t.after (.scalar ':')).lower ∈ spellings) :
    gather (fun token => (readSort token).map fun s => [s]) (ts.map .text) = .ok (sortsIn ts) := by
  induction ts with
  | nil => rfl
  | cons t ts ih =>
    obtain ⟨ht, hts⟩ := List.forall_mem_cons.1 h
    rw [List.map_cons, gather, readSort_text, if_pos ht, ih hts]
    rfl

theorem spellings_of_gather {ts : List Text} {sorts : List (Text × Direction)}
    (h : gather (fun token => (readSort token).map fun s => [s]) (ts.map .text) = .ok sorts) :
    ∀ t ∈ ts, (t.after (.scalar ':')).lower ∈ spellings := by
  induction ts generalizing sorts with
  | nil => exact nofun
  | cons t ts ih =>
    obtain ⟨first, hfirst, h⟩ := bind_eq_ok h
    obtain ⟨rest, hrest, -⟩ := bind_eq_ok h
    refine List.forall_mem_cons.2 ⟨?_, ih hrest⟩
    by_contra ht
    obtain ⟨s, hs, -⟩ := map_eq_ok hfirst
    rw [readSort_text, if_neg ht] at hs
    cases hs

theorem contents_sorting {ts : List Text} {sorts : List (Text × Direction)}
    (h : gather (fun token => (readSort token).map fun s => [s]) (ts.map .text) = .ok sorts) :
    (sorting ts).contents = .ok (.listing sorts []) := by
  have hsorts : readEach (fun token => (readSort token).map fun s => [s]) (sorting ts).sort =
      .ok sorts := (readEach_list _ _).trans h
  unfold Options.contents
  rw [hsorts]
  rfl

theorem build_sorting {ts : List Text} (h : ∀ t ∈ ts, (t.after (.scalar ':')).lower ∈ spellings) :
    (sorting ts).build.result = .ok () ∧
      (sorting ts).build.state = (Contents.listing (sortsIn ts) []).toStore :=
  build_of_contents (contents_sorting (gather_readSort_texts h))

/-- Sorts are accepted exactly when each spells a direction or none. -/
theorem build_sorting_iff (ts : List Text) :
    (sorting ts).build.result = .ok () ↔ ∀ t ∈ ts, (t.after (.scalar ':')).lower ∈ spellings := by
  constructor
  · intro hbuilt
    obtain ⟨contents, hcontents, -⟩ := exists_contents hbuilt
    have hsorts := (gives_of_contents hcontents).sorts
    exact spellings_of_gather ((readEach_list _ _).symm.trans hsorts)
  · exact fun h => (build_sorting h).1

/-- A sort with its direction spelled out has the same field and the same direction. -/
theorem parts_sortValue (t : Text) :
    (sortValue t).before (.scalar ':') = t.before (.scalar ':') ∧
      (sortValue t).after (.scalar ':') = (directionOf t).wire := by
  have hsplit : Text.splitFirst? (.scalar ':') (sortValue t) =
      some (t.before (.scalar ':'), (directionOf t).wire) :=
    Text.splitFirst_append (Text.notMem_before _ t) _
  have hparts := Text.splitFirst_getD (.scalar ':') (sortValue t)
  rw [hsplit] at hparts
  obtain ⟨hbefore, hafter⟩ := Prod.mk.inj hparts
  exact ⟨hbefore.symm, hafter.symm⟩

theorem spellings_sortValue (ts : List Text) :
    ∀ t ∈ ts.map sortValue, (t.after (.scalar ':')).lower ∈ spellings := by
  refine List.forall_mem_map.2 fun t _ => ?_
  rw [(parts_sortValue t).2]
  cases directionOf t <;> decide

/-- A sort with its direction spelled out asks for the same sort. -/
theorem sortsIn_sortValue (ts : List Text) : sortsIn (ts.map sortValue) = sortsIn ts := by
  have hdirection : ∀ t, directionOf (sortValue t) = directionOf t := by
    intro t
    rw [directionOf, (parts_sortValue t).2]
    cases directionOf t <;> decide
  simp only [sortsIn, List.map_map, Function.comp_def, (parts_sortValue _).1, hdirection]

/-! ## Normal forms -/

/-- A selection has a parameter where a piece between its commas is not blank. The text of the parameter has
these pieces between its commas, in order and without the blanks at their ends, and as a selection it
gives the same query. Sorts are accepted where nothing but a direction follows the first colon; the query
holds them in order, each with its direction spelled out, and in this form they give the same query. -/
theorem build_normalized {selected : List Text} (hplain : ∀ t ∈ selected, t.isWellFormed = true)
    (sorts : List Text) :
    (let s := (selecting selected).build.state
     (selecting selected).build.result = .ok () ∧
     ((s.get? (.text Parameter.select.name)).isSome = true ↔
       ∃ t ∈ selected, ∃ piece ∈ t.split (.scalar ','), piece.all CodePoint.isBlank = false) ∧
     ((s.get? (.text Parameter.select.name)).isSome = true → ∃ qs ps text,
       s.toQueryString = .ok qs ∧ Parameters.decode qs (.text Parameter.filters.name) = .ok ps ∧
       ps.get? Parameter.select.name = some (.text text) ∧
       text.split (.scalar ',') = namesIn selected ∧
       (selecting [text]).build.result = .ok () ∧ (selecting [text]).build.state = s)) ∧
    (let s := (sorting sorts).build.state
     ((sorting sorts).build.result = .ok () ↔
       ∀ t ∈ sorts, (t.after (.scalar ':')).lower ∈ spellings) ∧
     ((sorting sorts).build.result = .ok () →
       s.get? (.text Parameter.sort.name) = Slots.commaList ((sorts.map sortValue).map .text) ∧
       (sorting (sorts.map sortValue)).build.result = .ok () ∧
       (sorting (sorts.map sortValue)).build.state = s)) := by
  refine ⟨⟨(build_selecting selected).1, ?_, fun hsome => ?_⟩, build_sorting_iff sorts, fun hbuilt => ?_⟩
  · rw [isSome_select_selecting, namesIn_ne_nil]
  · have hne := (isSome_select_selecting selected).1 hsome
    obtain ⟨qs, ps, hqs, hdecode, hget⟩ := decode_selecting hplain hne
    obtain ⟨hagain, hsame⟩ := build_selecting [Text.join [.scalar ','] (namesIn selected)]
    refine ⟨qs, ps, _, hqs, hdecode, hget, split_join_namesIn hne, hagain, ?_⟩
    rw [hsame, namesIn_join hne, (build_selecting selected).2]
  · have hspelled := (build_sorting_iff sorts).1 hbuilt
    obtain ⟨-, hstate⟩ := build_sorting hspelled
    obtain ⟨hagain, hsame⟩ := build_sorting (spellings_sortValue sorts)
    refine ⟨?_, hagain, ?_⟩
    · rw [hstate, Contents.get?_listing_sort, sortTokens_sortsIn]
    · rw [hsame, hstate, sortsIn_sortValue]

/-- A selection with blanks, empty pieces and a text without names. -/
def untidy : List Text := [" a , ,b", ",", "c"]

/-- Sorts without a direction, in capitals, and with nothing after the colon. -/
def loose : List Text := ["name", "rating:DESC", "size:"]

theorem build_normalized_untidy :
    (∃ qs ps text, (selecting untidy).build.state.toQueryString = .ok qs ∧
      Parameters.decode qs (.text Parameter.filters.name) = .ok ps ∧
      ps.get? Parameter.select.name = some (.text text) ∧
      text.split (.scalar ',') = ["a", "b", "c"] ∧
      (selecting [text]).build.state = (selecting untidy).build.state) ∧
    (sorting loose).build.result = .ok () ∧
    (sorting loose).build.state.get? (.text Parameter.sort.name) =
      some (.commaList [.text "name:asc", .text "rating:desc", .text "size:asc"]) := by
  have hplain : ∀ t ∈ untidy, t.isWellFormed = true := by decide
  obtain ⟨⟨-, hiff, hselected⟩, hsorts, hsorted⟩ := build_normalized hplain loose
  have hpiece : ∃ t ∈ untidy, ∃ piece ∈ t.split (.scalar ','), piece.all CodePoint.isBlank = false := by
    decide
  have hspelled : ∀ t ∈ loose, (t.after (.scalar ':')).lower ∈ spellings := by decide +kernel
  have hbuilt := hsorts.2 hspelled
  obtain ⟨qs, ps, text, hqs, hdecode, hget, hsplit, -, hsame⟩ := hselected (hiff.2 hpiece)
  exact ⟨⟨qs, ps, text, hqs, hdecode, hget, hsplit, hsame⟩, hbuilt, (hsorted hbuilt).1⟩

end Options

end RowQuery
