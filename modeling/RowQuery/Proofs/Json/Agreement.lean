import RowQuery.Failure
import RowQuery.Proofs.Json.Conditions
import RowQuery.Proofs.Json.Wire

/-!
# Finite values and their JSON text

The check of a value and its encoding are two walks over it. Main statement: on values that JSON has a
counterpart for, the encoding gives a text exactly for those that pass the check, and that text stands for the
value, up to tuples, which are read back as lists.
-/

set_option autoImplicit false

namespace RowQuery

namespace Value

mutual

/-- A value built from null, truth values, numbers, texts, lists, tuples and mappings with texts as keys; the
digits of its integers are not too many. -/
def JsonLike : Value → Prop
  | null | bool _ | float _ | text _ => True
  | int n => Decimal.length n.natAbs ≤ Literal.maxIntDigits
  | list items | tuple items => AllJsonLike items
  | mapping members => AllMembersJsonLike members
  | _ => False

def AllJsonLike : List Value → Prop
  | [] => True
  | v :: vs => JsonLike v ∧ AllJsonLike vs

def AllMembersJsonLike : List (Value × Value) → Prop
  | [] => True
  | (k, v) :: ms =>
    (∃ t, k = .text t) ∧ (∀ m ∈ ms, m.1 ≠ k) ∧ JsonLike v ∧ AllMembersJsonLike ms

end

mutual

/-- The value with lists in place of tuples, at any depth. -/
def withoutTuples : Value → Value
  | list items | tuple items => .list (allWithoutTuples items)
  | mapping members => .mapping (membersWithoutTuples members)
  | v => v

def allWithoutTuples : List Value → List Value
  | [] => []
  | v :: vs => withoutTuples v :: allWithoutTuples vs

def membersWithoutTuples : List (Value × Value) → List (Value × Value)
  | [] => []
  | (k, v) :: ms => (k, withoutTuples v) :: membersWithoutTuples ms

end

mutual

/-- Lists in place of tuples make no difference to whether a value is finite. -/
@[simp] theorem isFinite_withoutTuples : ∀ v : Value, v.withoutTuples.isFinite = v.isFinite
  | list items | tuple items => allFinite_allWithoutTuples items
  | mapping members => allMembersFinite_membersWithoutTuples members
  | null | bool _ | int _ | float _ | text _ | octets _ | set _ | word _ | filter _ | circle _ | rectangle _
  | query _ | store .. => rfl

theorem allFinite_allWithoutTuples : ∀ vs : List Value, allFinite (allWithoutTuples vs) = allFinite vs
  | [] => rfl
  | v :: vs => by
    rw [allWithoutTuples, allFinite, allFinite, isFinite_withoutTuples v, allFinite_allWithoutTuples vs]

theorem allMembersFinite_membersWithoutTuples : ∀ ms : List (Value × Value),
    allMembersFinite (membersWithoutTuples ms) = allMembersFinite ms
  | [] => rfl
  | (k, v) :: ms => by
    rw [membersWithoutTuples, allMembersFinite, allMembersFinite, isFinite_withoutTuples v,
      allMembersFinite_membersWithoutTuples ms]

end

@[simp] theorem keys_membersWithoutTuples (ms : List (Value × Value)) :
    (membersWithoutTuples ms).map Prod.fst = ms.map Prod.fst := by
  induction ms with
  | nil => rfl
  | cons m ms ih => exact congrArg (m.1 :: ·) ih

end Value

namespace Json

open Value (allWithoutTuples membersWithoutTuples allFinite allMembersFinite AllJsonLike AllMembersJsonLike)

/-! ## The data of a value -/

/-- What the encoding gives: its result for a finite value, and the refusal of a number otherwise. -/
def guarded {α : Type} (finite : Bool) (a : α) : Except RenderFailure α :=
  if finite then .ok a else .error .nonFinite

/-- Of two encodings the first refusal counts. -/
theorem guarded_bind {α β : Type} (p q : Bool) (a : α) {b : β} {f : α → Except RenderFailure β}
    (hf : f a = guarded q b) : guarded p a >>= f = guarded (p && q) b := by
  cases p with
  | false => rfl
  | true => exact hf

theorem guarded_map {α β : Type} (p : Bool) (a : α) (f : α → β) :
    (guarded p a).map f = guarded p (f a) := by
  cases p <;> rfl

/-- The data stands for the value up to tuples, and the encoding gives it unless a number is in the way. -/
structure IsFormOf (v : Value) (j : Json) : Prop where
  settled : j.Settled
  short : j.Every Short
  toValue : j.toValue = v.withoutTuples
  encoding : ofValue strict v = guarded v.isFinite j

/-- The same for the elements of a list or tuple. -/
structure AreFormsOf (vs : List Value) (js : List Json) : Prop where
  settled : SettledItems js
  short : EveryItem Short js
  toValues : toValues js = allWithoutTuples vs
  encoding : ofValues strict vs = guarded (allFinite vs) js

/-- The same for the members of a mapping. -/
structure AreMembersOf (members : List (Value × Value)) (ms : List (Text × Json)) : Prop where
  settled : SettledMembers ms
  short : EveryMember Short ms
  toMembers : toMembers ms = membersWithoutTuples members
  encoding : ofMembers strict members = guarded (allMembersFinite members) ms

theorem keys_toMembers (ms : List (Text × Json)) :
    (toMembers ms).map Prod.fst = ms.map fun m => .text m.1 := by
  induction ms with
  | nil => rfl
  | cons m ms ih => exact congrArg (.text m.1 :: ·) ih

/-- A key that the mapping does not have is not a key of its data. -/
theorem AreMembersOf.ne {members : List (Value × Value)} {ms : List (Text × Json)}
    (h : AreMembersOf members ms) {t : Text} (ht : ∀ m ∈ members, m.1 ≠ .text t) : ∀ m ∈ ms, m.1 ≠ t := by
  rintro m hm rfl
  have hkeys : ms.map (fun m => Value.text m.1) = members.map Prod.fst := by
    rw [← keys_toMembers, h.toMembers, Value.keys_membersWithoutTuples]
  have hmem : Value.text m.1 ∈ members.map Prod.fst := hkeys ▸ List.mem_map_of_mem hm
  obtain ⟨n, hn, hkey⟩ := List.mem_map.1 hmem
  exact ht n hn hkey

mutual

/-- Every value like JSON data has a form in JSON, up to its tuples. -/
theorem exists_isFormOf : ∀ v : Value, v.JsonLike → ∃ j, IsFormOf v j
  | .null, _ => ⟨null, trivial, trivial, rfl, rfl⟩
  | .bool b, _ => ⟨bool b, trivial, trivial, rfl, rfl⟩
  | .text t, _ => ⟨text t, trivial, trivial, rfl, rfl⟩
  | .float x, _ => ⟨float x, trivial, trivial, rfl, rfl⟩
  | .int n, hv => by
    refine ⟨int n, trivial, hv, rfl, ?_⟩
    rw [ofValue, intText_of_short hv]
    rfl
  | .list items, hv | .tuple items, hv => by
    obtain ⟨js, hjs⟩ := exists_areFormsOf items hv
    refine ⟨array js, hjs.settled, hjs.short, congrArg Value.list hjs.toValues, ?_⟩
    rw [ofValue, hjs.encoding]
    exact guarded_map _ _ _
  | .mapping members, hv => by
    obtain ⟨ms, hms⟩ := exists_areMembersOf members hv
    refine ⟨object ms, hms.settled, hms.short, congrArg Value.mapping hms.toMembers, ?_⟩
    rw [ofValue, hms.encoding]
    exact guarded_map _ _ _
  | .octets _, hv | .set _, hv | .word _, hv | .filter _, hv | .circle _, hv | .rectangle _, hv
  | .query _, hv | .store .., hv => hv.elim

theorem exists_areFormsOf : ∀ vs : List Value, AllJsonLike vs → ∃ js, AreFormsOf vs js
  | [], _ => ⟨[], trivial, trivial, rfl, rfl⟩
  | v :: vs, h => by
    obtain ⟨j, hj⟩ := exists_isFormOf v h.1
    obtain ⟨js, hjs⟩ := exists_areFormsOf vs h.2
    refine ⟨j :: js, ⟨hj.settled, hjs.settled⟩, ⟨hj.short, hjs.short⟩, ?_, ?_⟩
    · rw [toValues, allWithoutTuples, hj.toValue, hjs.toValues]
    · rw [ofValues, hj.encoding, hjs.encoding]
      exact guarded_bind _ _ _ (guarded_map _ _ _)

theorem exists_areMembersOf : ∀ members : List (Value × Value), AllMembersJsonLike members →
    ∃ ms, AreMembersOf members ms
  | [], _ => ⟨[], trivial, trivial, rfl, rfl⟩
  | (k, v) :: members, ⟨⟨t, hk⟩, hne, hv, hmembers⟩ => by
    subst hk
    obtain ⟨j, hj⟩ := exists_isFormOf v hv
    obtain ⟨ms, hms⟩ := exists_areMembersOf members hmembers
    refine ⟨(t, j) :: ms, ⟨hms.ne hne, hj.settled, hms.settled⟩, ⟨trivial, hj.short, hms.short⟩, ?_, ?_⟩
    · rw [toMembers, membersWithoutTuples, hj.toValue, hms.toMembers]
    · rw [ofMembers, hj.encoding, hms.encoding]
      exact guarded_bind _ _ _ (guarded_map _ _ _)

end

/-! ## The text of a value -/

/-- Data of a finite value can be written. -/
theorem IsFormOf.writable {v : Value} {j : Json} (h : IsFormOf v j) (hfinite : v.isFinite = true) :
    j.Every Writable := by
  refine writable_of_short h.short ?_
  rw [h.toValue, Value.isFinite_withoutTuples, hfinite]

theorem IsFormOf.toJsonText {v : Value} {j : Json} (h : IsFormOf v j) :
    v.toJsonText = guarded v.isFinite (render wire j) := by
  rw [Value.toJsonText, h.encoding, guarded_map]

end Json

namespace Value

open Json (Tight IsData IsFormOf guarded)

/-- A value has a text exactly when it passes the check for finite numbers, and is a bad value otherwise. The
text is data in the strict grammar, without blanks outside of strings, and reading it gives the value back,
with lists in place of tuples. -/
theorem toJsonText_agrees {v : Value} (hv : v.JsonLike) :
    ((∃ t, v.toJsonText = .ok t) ↔ v.isFinite = true) ∧
      (v.isFinite = false → ∃ e, v.toJsonText = .error e ∧ e.kind = .value) ∧
      ∀ t, v.toJsonText = .ok t → Tight t ∧ (∃ tree, IsData t tree) ∧
        ∃ j, Json.read t = .ok j ∧ j.toValue = v.withoutTuples := by
  obtain ⟨j, hj⟩ := Json.exists_isFormOf v hv
  have htext := hj.toJsonText
  cases hfinite : v.isFinite with
  | false =>
    rw [hfinite] at htext
    have hrefused : v.toJsonText = .error .nonFinite := htext
    refine ⟨⟨?_, nofun⟩, fun _ => ⟨_, hrefused, rfl⟩, ?_⟩ <;> simp [hrefused]
  | true =>
    rw [hfinite] at htext
    have hwritten : v.toJsonText = .ok (Json.render Json.wire j) := htext
    refine ⟨iff_of_true ⟨_, hwritten⟩ rfl, nofun, fun t ht => ?_⟩
    obtain rfl : Json.render Json.wire j = t := Except.ok.inj (hwritten.symm.trans ht)
    have hwritable := hj.writable hfinite
    have htight := Json.tight_renderAt 0 j hwritable Json.Tight.nil
    rw [List.append_nil] at htight
    exact ⟨htight, Json.isData_renderAt 0 j hwritable, j, Json.read_render hj.settled hwritable, hj.toValue⟩

/-- A mapping with a tuple, empty values, and a key of a lone surrogate half, a quote and a control
character. -/
def mixed (x : Binary64) : Value :=
  .mapping [(.text [.lone ⟨0, by decide⟩, .scalar '"', .scalar '\x01'], .tuple [.int (-12), .float x, .tuple []]),
    (.ofString " ", .list [.null, .bool true, .mapping []])]

/-- The smallest negative number can stand in it, and no NaN. -/
theorem toJsonText_agrees_mixed :
    (∃ t j, (mixed (.finite true ⟨1, by decide⟩)).toJsonText = .ok t ∧ Tight t ∧
      Json.read t = .ok j ∧ j.toValue = (mixed (.finite true ⟨1, by decide⟩)).withoutTuples) ∧
      ∃ e, (mixed .nan).toJsonText = .error e ∧ e.kind = .value := by
  have hlike : ∀ x, (mixed x).JsonLike := fun x => by
    have hdigits : Decimal.length 12 ≤ Literal.maxIntDigits := by decide
    have hne : Text.ofString " " ≠ [.lone ⟨0, by decide⟩, .scalar '"', .scalar '\x01'] := by decide
    refine ⟨⟨_, rfl⟩, ?_, ⟨hdigits, trivial, trivial, trivial⟩, ⟨_, rfl⟩, nofun,
      ⟨trivial, trivial, trivial, trivial⟩, trivial⟩
    exact List.forall_mem_singleton.2 fun h => hne (Value.text.inj h)
  obtain ⟨hok, -, hgood⟩ := toJsonText_agrees (hlike (.finite true ⟨1, by decide⟩))
  obtain ⟨t, ht⟩ := hok.2 rfl
  obtain ⟨htight, -, j, hread, hvalue⟩ := hgood t ht
  exact ⟨⟨t, j, ht, htight, hread, hvalue⟩, (toJsonText_agrees (hlike .nan)).2.1 rfl⟩

end Value

end RowQuery
