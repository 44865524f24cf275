import RowQuery.Proofs.Fallible
import RowQuery.Proofs.Options.Readings
import RowQuery.Proofs.Store.Serialization

/-!
# Failures of options

Options of the declared types are texts without lone surrogate halves, lists of such texts, whole numbers
and truth values. Main statement: reading the contents of such options fails only with errors of the
library's own kinds.
-/

namespace RowQuery

open RowQuery.Action (gather)

set_option autoImplicit false

/-! ## Kinds of failures -/

/-- Every failure is of one of the library's own kinds. -/
abbrev FailsOwn {α : Type} (x : Except Failure α) : Prop :=
  FailsOnly (fun e => e.kind.isOwn = true) x

namespace FailsOwn

variable {α β : Type}

theorem argument (problem : ArgumentProblem) : FailsOwn (α := α) (.error (.argument problem)) :=
  .of_error rfl

theorem filter (problem : FilterProblem) : FailsOwn (α := α) (.error (.filter problem)) :=
  .of_error rfl

theorem gather {g : α → Except Failure (List β)} {as : List α} (h : ∀ a ∈ as, FailsOwn (g a)) :
    FailsOwn (gather g as) := by
  induction as with
  | nil => exact .of_ok []
  | cons a as ih =>
    obtain ⟨ha, has⟩ := List.forall_mem_cons.1 h
    apply ha.bind
    intro first _
    apply (ih has).bind
    intro rest _
    exact .of_ok (first ++ rest)

end FailsOwn

/-! ## Options of the declared types -/

namespace Options

/-- Nothing, or a text without lone surrogate halves. -/
def IsText (v : Value) : Prop := v = .null ∨ v.IsPlainText

/-- Nothing, or a list of texts without lone surrogate halves. -/
def AreTexts (v : Value) : Prop := v = .null ∨ ∃ vs : List Value, v = .list vs ∧ ∀ w ∈ vs, w.IsPlainText

/-- Nothing, or a whole number that has a text. -/
def IsWhole (v : Value) : Prop :=
  v = .null ∨ ∃ n : Int, v = .int n ∧ Decimal.length n.natAbs ≤ Literal.maxIntDigits

/-- The options are of the types that they are declared with. -/
structure Declared (o : Options) : Prop where
  search : IsText o.search
  exact : ∃ b, o.exact = .bool b
  limit : IsWhole o.limit
  offset : IsWhole o.offset
  sort : AreTexts o.sort
  select : AreTexts o.select
  filters : AreTexts o.filters
  circle : IsText o.circle
  rect : IsText o.rect
  combine : IsText o.combine
  includeCount : ∃ b, o.includeCount = .bool b
  threshold : IsText o.threshold

section Readings

variable {α β : Type}

theorem failsOwn_readGiven {f : Value → Except Failure α} {v : Value}
    (h : v = .null ∨ FailsOwn (f v)) : FailsOwn (readGiven f v) := by
  rcases h with rfl | h
  · exact .of_ok _
  · unfold readGiven
    split
    · exact .of_ok _
    · exact h.map _

theorem failsOwn_readFilled {f : Value → Except Failure (List β)} {v : Value}
    (h : v = .null ∨ FailsOwn (f v)) : FailsOwn (readFilled f v) := by
  unfold readFilled
  split
  · next hv =>
    rcases h with rfl | h
    · cases hv
    · exact h
  · exact .of_ok []

theorem failsOwn_readEach {f : Value → Except Failure (List β)} {v : Value} (hv : AreTexts v)
    (h : ∀ w : Value, w.IsPlainText → FailsOwn (f w)) : FailsOwn (readEach f v) := by
  rcases hv with rfl | ⟨vs, rfl, hvs⟩
  · exact .of_ok []
  · rw [readEach_list]
    exact FailsOwn.gather fun w hw => h w (hvs w hw)

end Readings

/-! ## Every reading -/

theorem failsOwn_searchTerm (exact : Bool) {v : Value} (h : v.IsPlainText) :
    FailsOwn (searchTerm exact v) := by
  obtain ⟨t, rfl, -⟩ := h
  cases exact <;> exact .of_ok _

/-- A JSON text that is no row filter is refused with an error of the library. -/
theorem failsOwn_readFilter {v : Value} (h : v.IsPlainText) : FailsOwn (readFilter v) := by
  obtain ⟨t, rfl, -⟩ := h
  refine FailsOnly.bind (.of_ok t) fun text htext => ?_
  cases hj : Json.read text with
  | error e => exact FailsOwn.filter _
  | ok j =>
    rcases RowFilter.reads_ofWire j (Json.settled_read hj) with ⟨f, hf⟩ | ⟨p, hp⟩ | ⟨-, hlong⟩
    · exact fun e he => nomatch hf.symm.trans he
    · intro e he
      cases hp.symm.trans he
      rfl
    · exact absurd (Json.short_read hj) hlong

/-- Numbers that cannot be read are refused with an error of the library. -/
theorem failsOwn_readNumbers (option : Text) (count : Nat) {v : Value} (h : v.IsPlainText) :
    FailsOwn (readNumbers option count v) := by
  obtain ⟨t, rfl, -⟩ := h
  refine FailsOnly.bind (.of_ok _) fun parts _ => ?_
  split
  · exact FailsOwn.argument _
  · split
    · exact .of_ok _
    · exact FailsOwn.argument _

theorem failsOwn_refuse {α : Type} (x : Binary64) (problem : Shown → ArgumentProblem) :
    FailsOwn (α := α) ((Value.float x).refuse problem) := FailsOwn.argument _

theorem failsOwn_checkCoordinate (name : Text) (bound : Nat) (x : Binary64) :
    FailsOwn (checkCoordinate name bound (.float x)) := by
  refine FailsOnly.bind (.of_ok x.isFinite) fun finite _ => ?_
  split
  · exact .of_ok _
  · exact failsOwn_refuse x _

theorem failsOwn_checkMeters (x : Binary64) : FailsOwn (checkMeters (.float x)) := by
  refine FailsOnly.bind (.of_ok x.isFinite) fun finite _ => ?_
  split
  · exact .of_ok _
  · exact failsOwn_refuse x _

theorem failsOwn_readCircle {v : Value} (h : v.IsPlainText) : FailsOwn (readCircle v) := by
  refine (failsOwn_readNumbers _ _ h).bind fun vs hvs => ?_
  obtain ⟨xs, rfl⟩ := readNumbers_eq_ok hvs
  match xs with
  | [lat, lon, meters] =>
    refine (failsOwn_checkCoordinate _ _ lat).bind fun _ _ => ?_
    refine (failsOwn_checkCoordinate _ _ lon).bind fun _ _ => ?_
    exact (failsOwn_checkMeters meters).bind fun _ _ => .of_ok _
  | [] | [_] | [_, _] | _ :: _ :: _ :: _ :: _ => exact FailsOwn.argument _

theorem failsOwn_readRect {v : Value} (h : v.IsPlainText) : FailsOwn (readRect v) := by
  refine (failsOwn_readNumbers _ _ h).bind fun vs hvs => ?_
  obtain ⟨xs, rfl⟩ := readNumbers_eq_ok hvs
  match xs with
  | [top, left, bottom, right] =>
    refine (failsOwn_checkCoordinate _ _ top).bind fun _ _ => ?_
    refine (failsOwn_checkCoordinate _ _ left).bind fun _ _ => ?_
    refine (failsOwn_checkCoordinate _ _ bottom).bind fun _ _ => ?_
    exact (failsOwn_checkCoordinate _ _ right).bind fun _ _ => .of_ok _
  | [] | [_] | [_, _] | [_, _, _] | _ :: _ :: _ :: _ :: _ :: _ => exact FailsOwn.argument _

theorem failsOwn_readCombine {v : Value} (h : v.IsPlainText) : FailsOwn (readCombine v) := by
  obtain ⟨t, rfl, -⟩ := h
  unfold readCombine
  split
  · exact .of_ok _
  · split
    · exact .of_ok _
    · exact FailsOwn.argument _

theorem failsOwn_readSort {v : Value} (h : v.IsPlainText) : FailsOwn (readSort v) := by
  obtain ⟨t, rfl, -⟩ := h
  refine FailsOnly.bind (.of_ok t) fun t _ => ?_
  dsimp only
  split
  · exact .of_ok _
  · split
    · exact .of_ok _
    · exact FailsOwn.argument _

theorem failsOwn_readSelect {v : Value} (h : v.IsPlainText) : FailsOwn (readSelect v) := by
  obtain ⟨t, rfl, -⟩ := h
  exact .of_ok _

theorem failsOwn_thresholdOf {v : Value} (h : v.IsPlainText) : FailsOwn (thresholdOf v) := by
  obtain ⟨t, rfl, -⟩ := h
  have hcheck : checkThreshold (.text t) = .ok () := by
    unfold checkThreshold
    split <;> rfl
  rw [thresholdOf, hcheck]
  exact .of_ok _

theorem failsOwn_wholeOf (name : Text) {v : Value} (h : IsWhole v) :
    FailsOwn (readGiven (wholeOf name) v) := by
  rcases h with rfl | ⟨n, rfl, -⟩ <;> exact .of_ok _

theorem failsOwn_readAreas {o : Options} (h : o.Declared) : FailsOwn (readAreas o) := by
  apply (failsOwn_readFilled (h.circle.imp_right fun hv => (failsOwn_readCircle hv).map _)).bind
  intro circles _
  apply (failsOwn_readFilled (h.rect.imp_right fun hv => (failsOwn_readRect hv).map _)).bind
  intro rects _
  exact .of_ok _

/-- Options of the declared types are refused with errors of the library only. -/
theorem failsOwn_contents {o : Options} (h : o.Declared) : FailsOwn o.contents := by
  have hcombine := h.combine.imp_right failsOwn_readCombine
  have hthreshold := h.threshold.imp_right failsOwn_thresholdOf
  apply (failsOwn_readGiven (h.search.imp_right (failsOwn_searchTerm _))).bind
  intro search _
  apply (failsOwn_readEach h.filters fun w hw => (failsOwn_readFilter hw).map _).bind
  intro listed _
  apply (failsOwn_readAreas h).bind
  intro areas _
  apply (failsOwn_readGiven hcombine).bind
  intro combinator _
  apply (failsOwn_readEach h.sort fun w hw => (failsOwn_readSort hw).map _).bind
  intro sorts _
  apply (failsOwn_readEach h.select fun w hw => failsOwn_readSelect hw).bind
  intro selects _
  apply (failsOwn_wholeOf "limit" h.limit).bind
  intro limit _
  apply (failsOwn_wholeOf "offset" h.offset).bind
  intro offset _
  apply (failsOwn_readGiven hthreshold).bind
  intro threshold _
  exact .of_ok _

end Options

end RowQuery
