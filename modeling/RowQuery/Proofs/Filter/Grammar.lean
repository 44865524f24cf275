import RowQuery.Proofs.Filter.Canonical
import RowQuery.Proofs.Json.Atoms
import RowQuery.Proofs.Json.Conditions

/-!
# The grammar of row filters

Which JSON data is a row filter on the wire, as a grammar that knows of no reader. Main statement: the
reader returns a row filter for exactly this data. All other data is refused as malformed, wherever in
it the fault lies.
-/

namespace RowQuery

set_option autoImplicit false

namespace Json

/-- Data that is a row filter on the wire. A predicate is one member under a key that is no
combinator, without NaN and infinities; a group is a list of row filters under a combinator, with at
least one of them. -/
inductive IsRowFilter : Json → Prop
  | predicate {k : Text} {j : Json} (hkey : ∀ c : Combinator, k ≠ c.wire)
      (hfinite : j.Every Finite) : IsRowFilter (.object [(k, j)])
  | group {c : Combinator} {js : List Json} (hne : js ≠ []) (hjs : ∀ j ∈ js, IsRowFilter j) :
      IsRowFilter (.object [(c.wire, .array js)])

theorem everyItem_iff {p : Json → Prop} {js : List Json} :
    EveryItem p js ↔ ∀ j ∈ js, j.Every p := by
  induction js with
  | nil => simp [EveryItem]
  | cons j js ih => simp [EveryItem, ih]

theorem settledItems_iff {js : List Json} : SettledItems js ↔ ∀ j ∈ js, j.Settled := by
  induction js with
  | nil => simp [SettledItems]
  | cons j js ih => simp [SettledItems, ih]

/-- Under a combinator there are operands. -/
theorem IsRowFilter.operands {c : Combinator} {j : Json} (h : IsRowFilter (.object [(c.wire, j)])) :
    ∃ js, j = .array js ∧ js ≠ [] ∧ ∀ i ∈ js, i.IsRowFilter := by
  generalize hd : Json.object [(c.wire, j)] = d at h
  cases h with
  | predicate hkey =>
    cases hd
    exact absurd rfl (hkey c)
  | @group c' js hne hjs =>
    have hm : (c.wire, j) = (c'.wire, .array js) := by simpa using hd
    exact ⟨js, (Prod.ext_iff.1 hm).2, hne, hjs⟩

/-- No NaN and no infinity occurs in a row filter, since none occurs in its predicates. -/
theorem IsRowFilter.finite {j : Json} (h : j.IsRowFilter) : j.Every Finite := by
  induction h with
  | predicate _ hfinite => exact ⟨trivial, hfinite, trivial⟩
  | group _ _ ih => exact ⟨trivial, everyItem_iff.2 ih, trivial⟩

end Json

namespace RowFilter

open Json (Settled SettledItems IsRowFilter toValues)

/-! ## What is read is in the grammar -/

mutual

/-- Only data of the grammar is read. -/
theorem isRowFilter_of_ofWire : ∀ (j : Json) (f : RowFilter), j.Settled →
    ofWire j.toValue = .ok f → j.IsRowFilter
  | j, f, hs, h => by
    rcases ofWire_cases hs h with ⟨k, i, rfl, hf, hk, -⟩ | ⟨c, i, is, fs, rfl, hfs, -⟩
    · exact .predicate hk (Json.finite_of_toValue i hf)
    · apply IsRowFilter.group (List.cons_ne_nil i is)
      exact areRowFilters_of_ofWires (i :: is) fs hs.2.1 hfs

theorem areRowFilters_of_ofWires : ∀ (js : List Json) (fs : List RowFilter), SettledItems js →
    ofWires (toValues js) = .ok fs → ∀ j ∈ js, j.IsRowFilter
  | [], _, _, _ => nofun
  | j :: js, fs, hs, h => by
    obtain ⟨g, gs, hg, hgs, -⟩ := ofWires_cons_ok h
    have hj := isRowFilter_of_ofWire j g hs.1 hg
    have hjs := areRowFilters_of_ofWires js gs hs.2 hgs
    exact List.forall_mem_cons.2 ⟨hj, hjs⟩

end

/-! ## What is in the grammar is read -/

theorem exists_ofWires {js : List Json} (h : ∀ j ∈ js, ∃ f, ofWire j.toValue = .ok f) :
    ∃ fs, ofWires (toValues js) = .ok fs := by
  induction js with
  | nil => exact ⟨[], rfl⟩
  | cons j js ih =>
    obtain ⟨⟨f, hf⟩, hrest⟩ := List.forall_mem_cons.1 h
    obtain ⟨fs, hfs⟩ := ih hrest
    refine ⟨f :: fs, ?_⟩
    rw [toValues, ofWires, hf, hfs]
    rfl

/-- All data of the grammar is read. -/
theorem exists_ofWire {j : Json} (h : j.IsRowFilter) (hs : j.Settled) :
    ∃ f, ofWire j.toValue = .ok f := by
  induction h with
  | @predicate k i hkey hfinite =>
    exact ⟨ofMember k i, ofWire_member (Json.isFinite_toValue i hfinite) hkey hs.2.1⟩
  | @group c js hne hjs ih =>
    -- The reader looks for NaN and infinities in all operands before it reads the first one.
    have hfinite : (Json.array js).toValue.isFinite = true :=
      Json.isFinite_toValue _ (Json.everyItem_iff.2 fun j hj => (hjs j hj).finite)
    have hsettled := Json.settledItems_iff.1 hs.2.1
    obtain ⟨fs, hfs⟩ := exists_ofWires fun j hj => ih j hj (hsettled j hj)
    obtain ⟨i, is, rfl⟩ := List.exists_cons_of_ne_nil hne
    refine ⟨group c fs, ?_⟩
    rw [ofWire_operands hfinite, ofOperands_array, hfs]
    rfl

/-- Of the data that JSON text can stand for exactly the row filters of the grammar are read. Any
other data is refused as malformed, and fails in no other way. -/
theorem ofWire_iff_isRowFilter {t : Text} {j : Json} (hj : Json.read t = .ok j) :
    ((∃ f, ofWire j.toValue = .ok f) ↔ j.IsRowFilter) ∧
      (¬ j.IsRowFilter → ∃ e, ofWire j.toValue = .error e ∧ e.kind = .filterParse) := by
  have hs := Json.settled_read hj
  have hread : (∃ f, ofWire j.toValue = .ok f) ↔ j.IsRowFilter := by
    constructor
    · rintro ⟨f, hf⟩
      exact isRowFilter_of_ofWire j f hs hf
    · intro h
      exact exists_ofWire h hs
  refine ⟨hread, fun hnot => ?_⟩
  -- A message can show all of the data, since integers that were read have a text.
  rcases reads_ofWire j hs with hok | ⟨p, hp⟩ | ⟨-, hlong⟩
  · exact absurd (hread.1 hok) hnot
  · exact ⟨.filter p, hp, rfl⟩
  · exact absurd (Json.short_read hj) hlong

/-- A group whose second operand is a group without operands. -/
def hollowData : Json :=
  .object [("$and", .array [.object [("a", .int 1)], .object [("$or", .array [])]])]

/-- The fault is in the inner group, and the data around it is refused. -/
theorem ofWire_iff_isRowFilter_hollowData :
    Json.read (Json.render Json.wire hollowData) = .ok hollowData ∧ ¬ hollowData.IsRowFilter ∧
      ∃ e, ofWire hollowData.toValue = .error e ∧ e.kind = .filterParse := by
  have hread : Json.read (Json.render Json.wire hollowData) = .ok hollowData := by rfl
  have hnot : ¬ hollowData.IsRowFilter := by
    intro h
    obtain ⟨js, hjs, -, hall⟩ := Json.IsRowFilter.operands (c := .and) h
    cases hjs
    have hinner : (Json.object [("$or", .array [])]).IsRowFilter := hall _ (by simp)
    obtain ⟨is, his, hne, -⟩ := Json.IsRowFilter.operands (c := .or) hinner
    cases his
    exact hne rfl
  exact ⟨hread, hnot, (ofWire_iff_isRowFilter hread).2 hnot⟩

end RowFilter

end RowQuery
