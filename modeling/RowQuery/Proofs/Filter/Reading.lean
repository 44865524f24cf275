import Mathlib.Logic.Basic
import RowQuery.Filter.Wire
import RowQuery.Proofs.Json.RoundTrip

/-!
# Reading row filters

What the reader makes of JSON data. Data that is one member under a combinator is a group, any other
one member is a predicate, and everything else is refused. Main statement: a row filter that was
read has the data as its wire form, so nothing of it is lost.
-/

namespace RowQuery

open Value (insertMember textKeyed? sameKey)

set_option autoImplicit false

namespace Json

/-- The members of a settled object are kept as they are. -/
theorem foldlM_toMembers {ms : List (Text × Json)} (hs : SettledMembers ms)
    (kept : List (Value × Value)) (hk : ∀ m ∈ ms, ∀ n ∈ kept, sameKey n.1 (.text m.1) = false) :
    (toMembers ms).foldlM
      (fun kept m => m.1.looseText?.map fun k => Value.insertMember kept (.text k) m.2) kept =
        some (kept ++ toMembers ms) := by
  induction ms generalizing kept with
  | nil => exact congrArg some (List.append_nil kept).symm
  | cons m ms ih =>
    obtain ⟨k, j⟩ := m
    obtain ⟨hne, -, hs⟩ := hs
    have hnew := Value.insertMember_of_new j.toValue (hk (k, j) List.mem_cons_self)
    have hkept : ∀ m ∈ ms, ∀ n ∈ kept ++ [(.text k, j.toValue)],
        sameKey n.1 (.text m.1) = false := by
      intro m hm n hn
      rcases List.mem_append.1 hn with hn | hn
      · exact hk m (List.mem_cons_of_mem _ hm) n hn
      · rw [List.mem_singleton.1 hn, Value.sameKey_text]
        exact decide_eq_false (hne m hm).symm
    calc
      _ = (toMembers ms).foldlM
            (fun kept m => m.1.looseText?.map fun k => Value.insertMember kept (.text k) m.2)
            (Value.insertMember kept (.text k) j.toValue) := rfl
      _ = some (kept ++ [(.text k, j.toValue)] ++ toMembers ms) := by rw [hnew, ih hs _ hkept]
      _ = some (kept ++ toMembers ((k, j) :: ms)) := by rw [List.append_assoc]; rfl

/-- Settled data is kept as it is where a row filter holds it. -/
theorem operand?_toValue {j : Json} (hs : j.Settled) : j.toValue.operand? = some j.toValue := by
  cases j with
  | object ms =>
    have hms : textKeyed? (toMembers ms) = some (toMembers ms) :=
      foldlM_toMembers hs [] fun _ _ _ hn => nomatch hn
    change (textKeyed? (toMembers ms)).map Value.mapping = _
    rw [hms]
    rfl
  | _ => rfl

end Json

namespace RowFilter

open Json (Settled SettledItems SettledMembers toValues toMembers)

/-! ## Predicates -/

/-- A predicate is made from a key, perhaps an operator, and finite data. -/
theorem fieldOfWire_eq (k : Text) (operator : Option Text) {j : Json} (hs : j.Settled)
    (hf : j.toValue.isFinite = true) :
    fieldOfWire (.text k) (operator.map .text) j.toValue = .ok (field k operator j.toValue) := by
  have hv : checkValue (some j.toValue) = .ok j.toValue := by
    rw [checkValue, Option.getD_some, Json.operand?_toValue hs]
    exact if_pos hf
  cases operator with
  | none =>
    change (fieldOfParts [(.ofString "key", .text k),
      (.ofString "value", j.toValue)]).mapError _ = _
    have hp : part? [(.ofString "key", .text k), (.ofString "value", j.toValue)] .value =
        some j.toValue := rfl
    rw [fieldOfParts, hp, hv]
    rfl
  | some o =>
    change (fieldOfParts [(.ofString "key", .text k), (.ofString "value", j.toValue),
      (.ofString "operator", .text o)]).mapError _ = _
    have hp : part? [(.ofString "key", .text k), (.ofString "value", j.toValue),
        (.ofString "operator", .text o)] .value = some j.toValue := rfl
    rw [fieldOfParts, hp, hv]
    rfl

/-- Whether a text starts with a dollar sign, as operators do. -/
def IsMarked (t : Text) : Prop := t.startsWith [.scalar '$'] = true

instance (t : Text) : Decidable (IsMarked t) := inferInstanceAs (Decidable (_ = _))

/-- The predicate that one member of JSON data stands for. -/
def ofMember (k : Text) : Json → RowFilter
  | .object [(o, j)] =>
    if IsMarked o then field k (some o) j.toValue
    else field k none (Json.object [(o, j)]).toValue
  | j => field k none j.toValue

/-- The reader of predicates, as a function of JSON data that does not fail. -/
theorem predicateOfWire_eq (k : Text) {j : Json} (hs : j.Settled) (hf : j.toValue.isFinite = true) :
    predicateOfWire (.text k) j.toValue = .ok (ofMember k j) := by
  match j with
  | .object [(o, i)] =>
    have hi : i.toValue.isFinite = true := (Bool.and_eq_true_iff.1 hf).1
    by_cases ho : IsMarked o
    · rw [ofMember, if_pos ho, ← fieldOfWire_eq k (some o) hs.2.1 hi]
      change (if o.startsWith [.scalar '$'] then _ else _) = _
      exact if_pos ho
    · rw [ofMember, if_neg ho, ← fieldOfWire_eq k none hs hf]
      change (if o.startsWith [.scalar '$'] then _ else _) = _
      exact if_neg ho
  | .object [] => exact fieldOfWire_eq k none hs hf
  | .object (_ :: _ :: _) => exact fieldOfWire_eq k none hs hf
  | .null | .bool _ | .int _ | .float _ | .text _ | .array _ => exact fieldOfWire_eq k none hs hf

/-- A predicate goes back to the member that it was read from. -/
theorem toWire_ofMember (k : Text) (j : Json) :
    (ofMember k j).toWire = (Json.object [(k, j)]).toValue := by
  unfold ofMember
  split
  · split <;> rfl
  · rfl

/-! ## Data -/

/-- The key of a group is the wire form of its combinator. -/
theorem ofWire?_eq_some {k : Text} {c : Combinator} :
    Combinator.ofWire? k = some c ↔ k = c.wire := by
  unfold Combinator.ofWire?
  constructor
  · intro h
    split at h
    · next hk => cases h; exact hk
    · split at h
      · next hk => cases h; exact hk
      · cases h
  · rintro rfl
    cases c <;> rfl

theorem ofWire?_eq_none {k : Text} :
    Combinator.ofWire? k = none ↔ ∀ c : Combinator, k ≠ c.wire := by
  constructor
  · intro h c hk
    rw [ofWire?_eq_some.2 hk] at h
    cases h
  · intro h
    cases hc : Combinator.ofWire? k with
    | none => rfl
    | some c => exact absurd (ofWire?_eq_some.1 hc) (h c)

/-- Data with a number that is not finite is refused before anything else is looked at. -/
theorem not_finite_member {k : Text} {j : Json} (hf : j.toValue.isFinite = false) :
    ofWire (Json.object [(k, j)]).toValue =
      (do .error (.filter (.nonFinite (← (Json.object [(k, j)]).toValue.inspected)))) := by
  change ofWire (.mapping [(.text k, j.toValue)]) = _
  rw [ofWire, ofMembers, hf]
  rfl

/-- A member under another key than that of a group is a predicate. -/
theorem ofWire_member {k : Text} {j : Json} (hf : j.toValue.isFinite = true)
    (hk : ∀ c : Combinator, k ≠ c.wire) (hs : j.Settled) :
    ofWire (Json.object [(k, j)]).toValue = .ok (ofMember k j) := by
  change ofWire (.mapping [(.text k, j.toValue)]) = _
  have hc : combinator? (.text k) = none := ofWire?_eq_none.2 hk
  rw [ofWire, ofMembers, hf, hc]
  exact predicateOfWire_eq k hs hf

/-- A member under the key of a group is read as its operands. -/
theorem ofWire_operands {c : Combinator} {j : Json} (hf : j.toValue.isFinite = true) :
    ofWire (Json.object [(c.wire, j)]).toValue =
      (ofOperands (Json.object [(c.wire, j)]).toValue (.text c.wire) j.toValue).map (group c) := by
  change ofWire (.mapping [(.text c.wire, j.toValue)]) = _
  have hc : combinator? (.text c.wire) = some c := ofWire?_eq_some.2 rfl
  rw [ofWire, ofMembers, hf, hc]
  rfl

theorem ofOperands_array (data key : Value) (j : Json) (js : List Json) :
    ofOperands data key (Json.array (j :: js)).toValue = ofWires (toValues (j :: js)) := by
  change ofOperands data key (.list (j.toValue :: toValues js)) = ofWires (j.toValue :: toValues js)
  rw [ofOperands, ofWires]

/-! ## Outcomes -/

theorem notSingleKey_ne_ok (data : Value) (f : RowFilter) : notSingleKey data ≠ .ok f := by
  unfold notSingleKey
  cases data.inspected <;> nofun

/-- Operands that are no list, or an empty one, are refused. -/
theorem ofOperands_eq_error {data key v : Value} (hv : ∀ item items, v ≠ .list (item :: items)) :
    ofOperands data key v =
      (do .error (.filter (.badOperands (← key.displayed) (← v.inspected) data))) := by
  unfold ofOperands
  split
  · exact absurd rfl (hv _ _)
  · rfl

theorem ofOperands_ne_ok {data key v : Value} (fs : List RowFilter)
    (hv : ∀ item items, v ≠ .list (item :: items)) : ofOperands data key v ≠ .ok fs := by
  rw [ofOperands_eq_error hv]
  cases key.displayed with
  | error => nofun
  | ok => cases v.inspected <;> nofun

/-- Operands are read from an array that is not empty. -/
theorem ofOperands_cases {data key : Value} {j : Json} {fs : List RowFilter}
    (h : ofOperands data key j.toValue = .ok fs) :
    ∃ i is, j = .array (i :: is) ∧ ofWires (toValues (i :: is)) = .ok fs := by
  match j with
  | .array (i :: is) => exact ⟨i, is, rfl, ofOperands_array data key i is ▸ h⟩
  | .array [] | .null | .bool _ | .int _ | .float _ | .text _ | .object _ =>
    exact absurd h (ofOperands_ne_ok fs fun _ _ he => nomatch he)

/-- What is read is a predicate, or a group of what is read from the elements of an array. -/
theorem ofWire_cases {j : Json} {f : RowFilter} (hs : j.Settled) (h : ofWire j.toValue = .ok f) :
    (∃ k i, j = .object [(k, i)] ∧ i.toValue.isFinite = true ∧ (∀ c : Combinator, k ≠ c.wire) ∧
      f = ofMember k i) ∨
    (∃ c i is fs, j = .object [(c.wire, .array (i :: is))] ∧
      ofWires (toValues (i :: is)) = .ok fs ∧ f = group c fs) := by
  match j with
  | .object [(k, i)] =>
    cases hf : i.toValue.isFinite with
    | false =>
      rw [not_finite_member hf] at h
      cases hi : (Json.object [(k, i)]).toValue.inspected <;> rw [hi] at h <;> cases h
    | true =>
      by_cases hk : ∀ c : Combinator, k ≠ c.wire
      · rw [ofWire_member hf hk hs.2.1] at h
        exact .inl ⟨k, i, rfl, hf, hk, (Except.ok.inj h).symm⟩
      · obtain ⟨c, hc⟩ := not_forall.1 hk
        obtain rfl := not_not.1 hc
        rw [ofWire_operands hf] at h
        cases ho : ofOperands (Json.object [(c.wire, i)]).toValue (.text c.wire) i.toValue with
        | error e => rw [ho] at h; cases h
        | ok fs =>
          rw [ho] at h
          obtain ⟨a, as, rfl, hfs⟩ := ofOperands_cases ho
          exact .inr ⟨c, a, as, fs, rfl, hfs, (Except.ok.inj h).symm⟩
  | .object [] => exact absurd h (notSingleKey_ne_ok _ f)
  | .object (_ :: _ :: _) => exact absurd h (notSingleKey_ne_ok _ f)
  | .null | .bool _ | .int _ | .float _ | .text _ | .array _ =>
    exact absurd h (notSingleKey_ne_ok _ f)

theorem ofWires_cons_ok {v : Value} {vs : List Value} {fs : List RowFilter}
    (h : ofWires (v :: vs) = .ok fs) :
    ∃ g gs, ofWire v = .ok g ∧ ofWires vs = .ok gs ∧ fs = g :: gs := by
  rw [ofWires] at h
  cases hg : ofWire v with
  | error e => rw [hg] at h; cases h
  | ok g =>
    cases hgs : ofWires vs with
    | error e => rw [hg, hgs] at h; cases h
    | ok gs =>
      rw [hg, hgs] at h
      exact ⟨g, gs, rfl, rfl, (Except.ok.inj h).symm⟩

mutual

/-- The wire form of a row filter that was read is the data that it was read from. -/
theorem toWire_of_ofWire : ∀ (j : Json) (f : RowFilter), j.Settled → ofWire j.toValue = .ok f →
    f.toWire = j.toValue
  | j, f, hs, h => by
    rcases ofWire_cases hs h with ⟨k, i, rfl, -, -, rfl⟩ | ⟨c, i, is, fs, rfl, hfs, rfl⟩
    · exact toWire_ofMember k i
    · have ih := toWires_of_ofWires (i :: is) fs hs.2.1 hfs
      rw [toWire, ih]
      rfl

theorem toWires_of_ofWires : ∀ (js : List Json) (fs : List RowFilter), SettledItems js →
    ofWires (toValues js) = .ok fs → toWires fs = toValues js
  | [], fs, _, h => by
    cases h
    rfl
  | j :: js, fs, hs, h => by
    obtain ⟨g, gs, hg, hgs, rfl⟩ := ofWires_cons_ok h
    rw [toWires, toWire_of_ofWire j g hs.1 hg, toWires_of_ofWires js gs hs.2 hgs]
    rfl

end

/-- Whatever JSON text the data comes from, what is read from the data has it as its wire form: the
same keys in the same order, the same operands in the same order and values of the same types. -/
theorem toWire_ofWire {t : Text} {j : Json} {f : RowFilter} (hj : Json.read t = .ok j)
    (hf : ofWire j.toValue = .ok f) : f.toWire = j.toValue :=
  toWire_of_ofWire j f (Json.settled_read hj) hf

/-- A group of an operator predicate and one without an operator, as JSON data. -/
def sampleData : Json :=
  .object [("$or", .array [
    .object [("a", .object [("$x", .object [("b", .array [.bool true, .int 1])])])],
    .object [("c", .object [("d", .float .zero)])]])]

def sampleFilter : RowFilter :=
  .group .or [.field "a" (some "$x") (.mapping [(.text "b", .list [.bool true, .int 1])]),
    .field "c" none (.mapping [(.text "d", .float .zero)])]

theorem toWire_sampleFilter :
    Json.read (Json.render Json.wire sampleData) = .ok sampleData ∧
      ofWire sampleData.toValue = .ok sampleFilter ∧ sampleFilter.toWire = sampleData.toValue := by
  have hsettled : sampleData.Settled := by
    simp [sampleData, Settled, SettledMembers, SettledItems]
  have hwritable : sampleData.Every Json.Writable := by
    have hone : Decimal.length 1 ≤ Literal.maxIntDigits := by decide
    have hzero : Binary64.zero.isFinite = true := rfl
    simpa [sampleData, Json.Every, Json.EveryMember, Json.EveryItem, Json.Writable, Json.Short,
      Json.Finite] using And.intro hone hzero
  have hj := Json.read_render hsettled hwritable
  have hf : ofWire sampleData.toValue = .ok sampleFilter := rfl
  exact ⟨hj, hf, toWire_ofWire hj hf⟩

end RowFilter

end RowQuery
