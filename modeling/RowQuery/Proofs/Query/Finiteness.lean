import RowQuery.Proofs.Query.Atomicity
import RowQuery.Proofs.Value.Finiteness
import RowQuery.Proofs.Value.Inspection

/-!
# Operands with numbers that are not finite

The field builder checks an operand twice: as it is given, and as the row filter keeps it. Main statement:
what a predicate does whose operand holds NaN or an infinity. Outside of sets the number is found and the
operand is refused by name; in a set at the top it is found by the second check, with another error; and
in sets below it is not found, so the predicate may be added.
-/

namespace RowQuery

open RowQuery.Action (effect)

set_option autoImplicit false

namespace Store

theorem effect_addRowFilter (f : RowFilter) (s : Store) :
    (s.Open ∧ effect (addRowFilter f) s = (.ok (), s.putRowFilters (s.rowFilters ++ [f]))) ∨
      ¬ s.Open ∧ ∃ e, e.kind = .conflict ∧ effect (addRowFilter f) s = (.error e, s) := by
  rcases addRowFilter_cases f s with ⟨hclosed, -⟩ | hopen
  · obtain ⟨entry, he, hkind⟩ : ∃ e, s.get? (.text s.rowFilterKey) = some e ∧ e.kind ≠ .rowFilters := by
      simpa [Open] using hclosed
    refine .inr ⟨hclosed, .conflict ⟨.text s.rowFilterKey, s.rowFilterKey⟩ entry.kind, rfl, ?_⟩
    rw [addRowFilter, Action.effect_bind, effect_openRowFilters_blocked he hkind]
    rfl
  · exact .inl hopen

end Store

namespace Query

variable {key v : Value} {o : Operator}

/-! ## Checks of an operand -/

/-- The error of an operand that the field builder refuses: it shows the field and the operand. Where one of
them has no text, that failure stands in its place. -/
inductive RefusesOperand (key v : Value) (o : Operator) : Failure → Prop
  | named {k t : Text} (hkey : key.display = .ok k) (hoperand : v.inspect = .ok t) :
    RefusesOperand key v o (.argument (.nonFiniteOperand ⟨key, k⟩ ⟨v, t⟩ o))
  | unshownField {f : RenderFailure} (hkey : key.display = .error f) :
    RefusesOperand key v o (.defect (.unrenderable f))
  | unshownOperand {k : Text} {f : RenderFailure} (hkey : key.display = .ok k)
    (hoperand : v.inspect = .error f) (hf : HasNoText v.shownQueries f) :
    RefusesOperand key v o (.defect (.unrenderable f))

/-- A predicate on a number that is not finite is refused, and nothing is written. -/
theorem effect_addPredicate_refused (key : Value) (o : Operator) (hv : v.isFinite = false) (s : Store) :
    ∃ e, effect (addPredicate key o v) s = (.error e, s) ∧ RefusesOperand key v o e := by
  have hrefuse : addPredicate key o v = Store.refuse key v fun k w => .nonFiniteOperand k w o :=
    if_pos (by simp [hv])
  rw [hrefuse]
  unfold Store.refuse
  simp only [Action.effect_bind, Action.effect_displayed]
  unfold Value.displayed
  cases hkey : key.display with
  | error f => exact ⟨_, rfl, .unshownField hkey⟩
  | ok k =>
    simp only [Action.andThen_ok, Action.effect_bind, Action.effect_inspected]
    unfold Value.inspected
    cases hoperand : v.inspect with
    | error f => exact ⟨_, rfl, .unshownOperand hkey hoperand (Value.failsOnly_inspect v f hoperand)⟩
    | ok t => exact ⟨_, rfl, .named hkey hoperand⟩

/-- The predicate is made where its field has a text and its operand is kept and passes the second check. -/
theorem makeField_cases (key v : Value) (o : Operator) :
    (∃ f, RowFilter.makeField (predicateParts key o v) = .ok f ∧ predicate? key o v = some f ∧
        ∀ kept, v.operand? = some kept → kept.isFinite = true) ∨
      ∃ e, RowFilter.makeField (predicateParts key o v) = .error e ∧ e.kind = .validation ∧
        ∀ f, predicate? key o v = some f → ∃ kept, v.operand? = some kept ∧ kept.isFinite = false := by
  rw [makeField_predicateParts_eq]
  unfold predicate? RowFilter.checkKey RowFilter.checkValue
  simp only [Option.bind_some, Option.getD_some]
  cases key.looseText? with
  | none =>
    refine .inr ⟨_, rfl, rfl, fun f hf => ?_⟩
    cases hf
  | some k =>
    cases v.operand? with
    | none =>
      refine .inr ⟨_, rfl, rfl, fun f hf => ?_⟩
      cases hf
    | some kept =>
      cases hkept : kept.isFinite with
      | true =>
        refine .inl ⟨_, by simp only [hkept]; rfl, rfl, fun kept' h => ?_⟩
        cases h
        exact hkept
      | false => exact .inr ⟨_, by simp only [hkept]; rfl, rfl, fun _ _ => ⟨kept, rfl, hkept⟩⟩

/-- A predicate whose operand passes the first check does what its row filter does, if that is made. -/
theorem effect_addPredicate (key : Value) (o : Operator) (hv : v.isFinite = true) (s : Store) :
    effect (addPredicate key o v) s =
      match RowFilter.makeField (predicateParts key o v) with
      | .ok f => effect (Store.addRowFilter f) s
      | .error e => (.error e, s) := by
  have hmake : addPredicate key o v =
      Action.lift (RowFilter.makeField (predicateParts key o v)) >>= Store.addRowFilter :=
    if_neg (by simp [hv])
  rw [hmake, Action.effect_bind, Action.effect_lift]
  cases RowFilter.makeField (predicateParts key o v) <;> rfl

/-- The predicate is added, if no other kind of entry stands under the key of the row filters, the predicate
can be made, and its operand is no set that the second check refuses. -/
def Admits (s : Store) (key v : Value) (o : Operator) : Prop :=
  s.Open ∧ (∃ f, predicate? key o v = some f) ∧ ¬ v.IsNonFiniteSet

/-- A predicate whose operand passes the first check, but holds a number that is not finite, is added or fails
with an error of another kind, and then it writes nothing. -/
theorem addPredicate_cases (key : Value) (o : Operator) (hv : v.HoldsNonFinite true)
    (hchecked : v.isFinite = true) (s : Store) :
    (Admits s key v o ∧ ∃ f, predicate? key o v = some f ∧
        effect (addPredicate key o v) s = (.ok (), s.putRowFilters (s.rowFilters ++ [f]))) ∨
      ¬ Admits s key v o ∧ ∃ e, (e.kind = .validation ∨ e.kind = .conflict) ∧
        effect (addPredicate key o v) s = (.error e, s) := by
  have heffect := effect_addPredicate key o hchecked s
  rcases makeField_cases key v o with ⟨f, hmake, hf, hkept⟩ | ⟨e, hmake, hkind, hkept⟩
  · have hset : ¬ v.IsNonFiniteSet := by
      intro hset
      obtain ⟨k, -, h⟩ := Option.bind_eq_some_iff.1 hf
      obtain ⟨kept, hoperand, -⟩ := Option.bind_eq_some_iff.1 h
      have hbad := (Value.isFinite_kept hv hchecked hoperand).2 hset
      cases hbad.symm.trans (hkept kept hoperand)
    rw [hmake] at heffect
    rcases Store.effect_addRowFilter f s with ⟨hopen, hadd⟩ | ⟨hclosed, e, hkind, hadd⟩
    · exact .inl ⟨⟨hopen, ⟨f, hf⟩, hset⟩, f, hf, heffect.trans hadd⟩
    · exact .inr ⟨fun h => hclosed h.1, e, .inr hkind, heffect.trans hadd⟩
  · rw [hmake] at heffect
    refine .inr ⟨?_, e, .inl hkind, heffect⟩
    rintro ⟨-, ⟨f, hf⟩, hset⟩
    obtain ⟨kept, hoperand, hbad⟩ := hkept f hf
    exact hset ((Value.isFinite_kept hv hchecked hoperand).1 hbad)

/-! ## Calls -/

/-- The field, the operator and the operand of a predicate. -/
def Call.operand? : Call → Option (Value × Operator × Value)
  | predicate key operator operand => some (key, operator, operand)
  | predicateAny key operator operands => some (key, operator, .list (flatten operands))
  | _ => none

/-- The query and all others are as they were. -/
def Unchanged (self : Text) (family after : Family) : Prop :=
  after.current self = family.current self ∧ ∀ other, other ≠ self → after.get other = family.get other

theorem effect_step_operand {c : Call} (hc : c.operand? = some (key, o, v)) (self : Text) (family : Family) :
    effect (step self c) family =
      let result := effect (addPredicate key o v) (family.current self)
      (result.1, ((family.refresh self).put self result.2).refresh self) := by
  have hrun : c.run self = Family.focus self (addPredicate key o v) := by
    cases c with
    | predicate | predicateAny =>
      cases hc
      rfl
    | _ => cases hc
  rw [step, hrun, Family.effect_upToDate, Family.effect_focus, Family.get_refresh_self]

/-- A predicate that leaves its query as it is leaves all queries. -/
theorem unchanged_of_kept {c : Call} (hc : c.operand? = some (key, o, v)) {self : Text} {family : Family}
    {result : Except Failure Unit}
    (h : effect (addPredicate key o v) (family.current self) = (result, family.current self)) :
    (effect (step self c) family).1 = result ∧ Unchanged self family (effect (step self c) family).2 := by
  rw [effect_step_operand hc, h]
  refine ⟨rfl, current_failed self, fun other ho => ?_⟩
  exact (Family.get_put_other ho _ _).trans
    ((Family.get_put_other ho _ _).trans (Family.get_put_other ho _ _))

/-- What a predicate does whose operand holds a number that is not finite. Outside of sets the number is found:
the operand is refused, and every query is as it was. In sets it is not found, or with another error: a set
at the top that holds the number is no valid operand, and nor is what no row filter can keep, and every query
is as it was then. Otherwise the predicate is added with the number in it. -/
theorem step_nonFinite {c : Call} (hc : c.operand? = some (key, o, v)) (hv : v.HoldsNonFinite true)
    (self : Text) (family : Family) :
    let query := family.current self
    let outcome := (effect (step self c) family).1
    let after := (effect (step self c) family).2
    (v.HoldsNonFinite false →
      (∃ e, outcome = .error e ∧ RefusesOperand key v o e) ∧ Unchanged self family after) ∧
    (¬ v.HoldsNonFinite false →
      (outcome = .ok () ↔ Admits query key v o) ∧
      (outcome = .ok () → ∃ f, predicate? key o v = some f ∧
        after.current self =
          (query.putRowFilters (query.rowFilters ++ [f])).withQueries after.handle) ∧
      ∀ e, outcome = .error e →
        (e.kind = .validation ∨ e.kind = .conflict) ∧ Unchanged self family after) := by
  intro query outcome after
  rw [Value.holdsNonFinite_iff, Bool.not_eq_false]
  refine ⟨fun hrefused => ?_, fun hchecked => ?_⟩
  · obtain ⟨e, he, hrefuses⟩ := effect_addPredicate_refused key o hrefused query
    obtain ⟨hresult, hunchanged⟩ := unchanged_of_kept hc he
    exact ⟨⟨e, hresult, hrefuses⟩, hunchanged⟩
  · rcases addPredicate_cases key o hv hchecked query with
      ⟨hadmits, f, hf, hadd⟩ | ⟨hadmits, e, hkind, hadd⟩
    · have hstep := effect_step_operand hc self family
      rw [hadd] at hstep
      have hresult : outcome = .ok () := congrArg Prod.fst hstep
      have hafter : after = _ := congrArg Prod.snd hstep
      refine ⟨iff_of_true hresult hadmits, fun _ => ⟨f, hf, ?_⟩, fun e he => ?_⟩
      · rw [hafter, Family.current_refresh_eq, Family.get_put_same]
      · cases hresult.symm.trans he
    · obtain ⟨hresult, hunchanged⟩ := unchanged_of_kept hc hadd
      refine ⟨iff_of_false (fun h => ?_) hadmits, fun h => ?_, fun e' he => ?_⟩
      · cases hresult.symm.trans h
      · cases hresult.symm.trans h
      · cases hresult.symm.trans he
        exact ⟨hkind, hunchanged⟩

/-- A predicate whose operand is a list of the elements of a tuple, with NaN in a mapping among them. -/
def buriedNan : Call :=
  .predicateAny (.ofString "a") .isIn [.tuple [.int 1, .mapping [(.ofString "b", .float .nan)]]]

theorem step_nonFinite_buriedNan :
    ∃ e, (effect (step "q" buriedNan) Family.fresh).1 = .error e ∧ e.kind = .invalidArgument ∧
      Unchanged "q" Family.fresh (effect (step "q" buriedNan) Family.fresh).2 := by
  have hholds : ∀ inSets, (Value.list [.int 1, .mapping [(.ofString "b", .float .nan)]]).HoldsNonFinite
      inSets := fun inSets =>
    .list (List.mem_cons_of_mem _ List.mem_cons_self) (.mapping List.mem_cons_self (.float rfl))
  obtain ⟨⟨e, he, hrefuses⟩, hsame⟩ :=
    (step_nonFinite (c := buriedNan) rfl (hholds true) "q" Family.fresh).1 (hholds false)
  refine ⟨e, he, ?_, hsame⟩
  cases hrefuses with
  | named => rfl
  | unshownField hkey => cases hkey
  | unshownOperand _ hoperand => cases hoperand

/-- In a set below the top NaN is not found, and in a set at the top it is found with another error. -/
theorem nanInSet_not_refused :
    (Value.list [.set [.float .nan]]).HoldsNonFinite true ∧
      (effect (step "q" (.predicate (.ofString "a") .eq (.list [.set [.float .nan]])))
        Family.fresh).1 = .ok () ∧
      (Value.set [.float .nan]).HoldsNonFinite true ∧
      ∃ e, (effect (step "q" (.predicate (.ofString "a") .eq (.set [.float .nan]))) Family.fresh).1 =
        .error e ∧ e.kind ≠ .invalidArgument := by
  have hset : (Value.set [.float .nan]).HoldsNonFinite true := .set rfl List.mem_cons_self (.float rfl)
  exact ⟨.list List.mem_cons_self hset, rfl, hset, _, rfl, nofun⟩

end Query

end RowQuery
