import RowQuery.Proofs.Fallible
import RowQuery.Value.Inspect

/-!
# Values without a text

What keeps a value from being shown in a message. Main statement: either an integer in it has too many
digits, or a query in it has no text itself.
-/

namespace RowQuery

set_option autoImplicit false

/-- The failure is that of an integer of too many digits, or of one of the queries. -/
def HasNoText (queries : List QueryHandle) (e : RenderFailure) : Prop :=
  e = .tooManyDigits ∨ ∃ q ∈ queries, q.text = .error e

namespace FailsOnly

variable {α : Type} {x : Except RenderFailure α} {qs qs' : List QueryHandle}

/-- Queries that are shown after the failing part do not count. -/
theorem before (hx : FailsOnly (HasNoText qs) x) : FailsOnly (HasNoText (qs ++ qs')) x :=
  hx.imp fun _ h => h.imp_right fun ⟨q, hq, ht⟩ => ⟨q, List.mem_append_left _ hq, ht⟩

/-- Nor do those that were shown before it. -/
theorem after (hx : FailsOnly (HasNoText qs') x) : FailsOnly (HasNoText (qs ++ qs')) x :=
  hx.imp fun _ h => h.imp_right fun ⟨q, hq, ht⟩ => ⟨q, List.mem_append_right _ hq, ht⟩

end FailsOnly

theorem failsOnly_intText (qs : List QueryHandle) (n : Int) :
    FailsOnly (HasNoText qs) (intText n) := by
  unfold intText
  split
  · exact .of_error (.inl rfl)
  · exact .of_ok _

theorem failsOnly_shapeText (qs : List QueryHandle) (name : Text) (parts : List (String × Number)) :
    FailsOnly (HasNoText qs) (shapeText name parts) := by
  unfold shapeText
  apply FailsOnly.bind
  · apply FailsOnly.mapM
    rintro ⟨part, n⟩ -
    apply FailsOnly.bind
    · cases n with
      | int n => exact failsOnly_intText qs n
      | float x => exact .of_ok _
    · exact fun t _ => .of_ok _
  · exact fun shown _ => .of_ok _

namespace Value

mutual

/-- A value is shown unless an integer in it or a query in it keeps it from being shown. -/
theorem failsOnly_inspect : ∀ v : Value, FailsOnly (HasNoText v.shownQueries) (inspect v)
  | null | bool _ | float _ | text _ | octets _ | word _ | store .. => .of_ok _
  | int n => failsOnly_intText _ n
  | list items => (failsOnly_inspectAll items).bind fun _ _ => .of_ok _
  | tuple items => (failsOnly_inspectAll items).bind fun _ _ => .of_ok _
  | set items => (failsOnly_inspectAll items).bind fun _ _ => .of_ok _
  | mapping members => (failsOnly_inspectMembers members).bind fun _ _ => .of_ok _
  | filter f => (failsOnly_filterParts f).map partsText
  | circle _ => failsOnly_shapeText _ _ _
  | rectangle _ => failsOnly_shapeText _ _ _
  | query q => by
    rw [inspect, QueryHandle.inspect]
    cases hq : q.text with
    | ok t => exact .of_ok _
    | error e => exact .of_error (.inr ⟨q, List.mem_singleton_self q, hq⟩)

/-- The same for elements. -/
theorem failsOnly_inspectAll : ∀ vs : List Value,
    FailsOnly (HasNoText (shownQueriesIn vs)) (inspectAll vs)
  | [] => .of_ok _
  | v :: vs => by
    apply (failsOnly_inspect v).before.bind
    intro t _
    apply (failsOnly_inspectAll vs).after.bind
    intro ts _
    exact .of_ok _

theorem failsOnly_inspectMembers : ∀ ms : List (Value × Value),
    FailsOnly (HasNoText (shownQueriesInMembers ms)) (inspectMembers ms)
  | [] => .of_ok _
  | (k, v) :: ms => by
    apply (failsOnly_inspect k).before.before.bind
    intro key _
    apply (failsOnly_inspect v).after.before.bind
    intro t _
    apply (failsOnly_inspectMembers ms).after.bind
    intro rest _
    exact .of_ok _

theorem failsOnly_filterParts : ∀ f : RowFilter,
    FailsOnly (HasNoText (shownQueriesOfFilter f)) (filterParts f)
  | .field _ _ v => (failsOnly_inspect v).bind fun _ _ => .of_ok _
  | .group _ fs => (failsOnly_inspectFilters fs).bind fun _ _ => .of_ok _

theorem failsOnly_inspectFilters : ∀ fs : List RowFilter,
    FailsOnly (HasNoText (shownQueriesOfFilters fs)) (inspectFilters fs)
  | [] => .of_ok _
  | f :: fs => by
    apply (failsOnly_filterParts f).before.bind
    intro parts _
    apply (failsOnly_inspectFilters fs).after.bind
    intro rest _
    exact .of_ok _

end

/-- The text of a value for a parameter or a label exists unless an integer or a query keeps it from being
shown. -/
theorem failsOnly_display (v : Value) : FailsOnly (HasNoText v.shownQueries) v.display := by
  cases v with
  | text t => exact .of_ok _
  | word w => exact .of_ok _
  | filter f => exact (failsOnly_filterParts f).bind fun _ _ => .of_ok _
  | _ => exact failsOnly_inspect _

end Value

end RowQuery
