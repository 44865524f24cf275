import RowQuery.Filter.Checked

/-!
# Numbers that are not finite

Where NaN and the infinities stand in a value. The check of a value finds them at any depth, but not in
sets. The form in which a row filter keeps an operand has a list in place of a set at the top, so there a
check of what is kept finds them too, and in sets below it does not.
-/

namespace RowQuery.Value

set_option autoImplicit false

/-- A number that is not finite stands in the value: at the top, or at any depth among the elements of lists
and tuples and the values of mappings, and also among the elements of sets if `inSets` is set. -/
inductive HoldsNonFinite (inSets : Bool) : Value → Prop
  | float {x : Binary64} (hx : x.isFinite = false) : HoldsNonFinite inSets (.float x)
  | list {items : List Value} {v : Value} (hv : v ∈ items) (h : HoldsNonFinite inSets v) :
    HoldsNonFinite inSets (.list items)
  | tuple {items : List Value} {v : Value} (hv : v ∈ items) (h : HoldsNonFinite inSets v) :
    HoldsNonFinite inSets (.tuple items)
  | set {items : List Value} {v : Value} (hsets : inSets = true) (hv : v ∈ items)
    (h : HoldsNonFinite inSets v) : HoldsNonFinite inSets (.set items)
  | mapping {members : List (Value × Value)} {k v : Value} (hv : (k, v) ∈ members)
    (h : HoldsNonFinite inSets v) : HoldsNonFinite inSets (.mapping members)

theorem allFinite_iff {vs : List Value} : allFinite vs = true ↔ ∀ v ∈ vs, v.isFinite = true := by
  induction vs with
  | nil => simp [allFinite]
  | cons v vs ih => simp [allFinite, ih]

theorem allMembersFinite_iff {ms : List (Value × Value)} :
    allMembersFinite ms = true ↔ ∀ m ∈ ms, m.2.isFinite = true := by
  induction ms with
  | nil => simp [allMembersFinite]
  | cons m ms ih => simp [allMembersFinite, ih]

mutual

/-- What the check refuses holds such a number outside of sets. -/
theorem holdsNonFinite_of_isFinite : ∀ v : Value, v.isFinite = false → v.HoldsNonFinite false
  | float _, h => .float h
  | list items, h => by
    obtain ⟨v, hv, hn⟩ := exists_holdsNonFinite items h
    exact .list hv hn
  | tuple items, h => by
    obtain ⟨v, hv, hn⟩ := exists_holdsNonFinite items h
    exact .tuple hv hn
  | mapping members, h => by
    obtain ⟨m, hm, hn⟩ := exists_member_holdsNonFinite members h
    exact .mapping hm hn
  | set _, h | null, h | bool _, h | int _, h | text _, h | octets _, h | word _, h | filter _, h | circle _, h
  | rectangle _, h | query _, h | store .., h => by cases h

theorem exists_holdsNonFinite : ∀ vs : List Value, allFinite vs = false → ∃ v ∈ vs, v.HoldsNonFinite false
  | v :: vs, h => by
    rw [allFinite, Bool.and_eq_false_iff] at h
    rcases h with h | h
    · exact ⟨v, List.mem_cons_self, holdsNonFinite_of_isFinite v h⟩
    · obtain ⟨w, hw, hn⟩ := exists_holdsNonFinite vs h
      exact ⟨w, List.mem_cons_of_mem _ hw, hn⟩

theorem exists_member_holdsNonFinite : ∀ ms : List (Value × Value), allMembersFinite ms = false →
    ∃ m ∈ ms, m.2.HoldsNonFinite false
  | (k, v) :: ms, h => by
    rw [allMembersFinite, Bool.and_eq_false_iff] at h
    rcases h with h | h
    · exact ⟨(k, v), List.mem_cons_self, holdsNonFinite_of_isFinite v h⟩
    · obtain ⟨m, hm, hn⟩ := exists_member_holdsNonFinite ms h
      exact ⟨m, List.mem_cons_of_mem _ hm, hn⟩

end

theorem not_allFinite_of_mem {vs : List Value} {v : Value} (hv : v ∈ vs) (h : v.isFinite = false) :
    allFinite vs = false :=
  Bool.eq_false_iff.2 fun hall => Bool.eq_false_iff.1 h (allFinite_iff.1 hall v hv)

theorem HoldsNonFinite.isFinite {v : Value} (h : v.HoldsNonFinite false) : v.isFinite = false := by
  induction h with
  | float hx => exact hx
  | list hv _ ih => exact not_allFinite_of_mem hv ih
  | tuple hv _ ih => exact not_allFinite_of_mem hv ih
  | set hsets => cases hsets
  | mapping hv _ ih =>
    exact Bool.eq_false_iff.2 fun hall => Bool.eq_false_iff.1 ih (allMembersFinite_iff.1 hall _ hv)

/-- The check of finite numbers fails exactly where one that is not finite can be seen. -/
theorem holdsNonFinite_iff {v : Value} : v.HoldsNonFinite false ↔ v.isFinite = false :=
  ⟨HoldsNonFinite.isFinite, holdsNonFinite_of_isFinite v⟩

/-! ## Kept operands -/

theorem forall_insertMember {P : Value → Prop} {ms : List (Value × Value)} {key v : Value}
    (hms : ∀ m ∈ ms, P m.2) (hv : P v) : ∀ m ∈ insertMember ms key v, P m.2 := by
  induction ms with
  | nil => exact List.forall_mem_singleton.2 hv
  | cons m ms ih =>
    obtain ⟨hm, hms⟩ := List.forall_mem_cons.1 hms
    rw [insertMember]
    split
    · exact List.forall_mem_cons.2 ⟨hv, hms⟩
    · exact List.forall_mem_cons.2 ⟨hm, ih hms⟩

/-- A mapping with texts as keys has no other values than the mapping that it is made from. -/
theorem forall_textKeyed {P : Value → Prop} {members kept : List (Value × Value)}
    (hmembers : ∀ m ∈ members, P m.2) (hkept : textKeyed? members = some kept) : ∀ m ∈ kept, P m.2 := by
  suffices h : ∀ ms, (∀ m ∈ ms, P m.2) →
      members.foldlM (fun ms m => m.1.looseText?.map fun k => insertMember ms (.text k) m.2) ms = some kept →
        ∀ m ∈ kept, P m.2 from h [] nofun hkept
  clear hkept
  induction members with
  | nil =>
    intro ms hms h
    cases h
    exact hms
  | cons m members ih =>
    obtain ⟨hm, hmembers⟩ := List.forall_mem_cons.1 hmembers
    intro ms hms h
    obtain ⟨inserted, hinserted, h⟩ := Option.bind_eq_some_iff.1 h
    obtain ⟨k, -, rfl⟩ := Option.map_eq_some_iff.1 hinserted
    exact ih hmembers _ (forall_insertMember hms hm) h

/-- A set of which an element holds a number that is not finite, outside of further sets. -/
def IsNonFiniteSet (v : Value) : Prop := ∃ items, v = .set items ∧ ∃ item ∈ items, item.HoldsNonFinite false

/-- Where the check of an operand finds nothing, the check of what is kept of it finds something in a set
only. -/
theorem isFinite_kept {v kept : Value} (hv : v.HoldsNonFinite true) (hchecked : v.isFinite = true)
    (hkept : v.operand? = some kept) : kept.isFinite = false ↔ v.IsNonFiniteSet := by
  cases hv with
  | float hx => cases hx.symm.trans hchecked
  | list | tuple =>
    cases hkept
    refine iff_of_false (Bool.not_eq_false _ ▸ hchecked) ?_
    rintro ⟨items, hset, -⟩
    cases hset
  | mapping =>
    obtain ⟨ms, hms, rfl⟩ := Option.map_eq_some_iff.1 hkept
    have hfinite : allMembersFinite ms = true :=
      allMembersFinite_iff.2 (forall_textKeyed (P := fun w => w.isFinite = true)
        (allMembersFinite_iff.1 hchecked) hms)
    refine iff_of_false (Bool.not_eq_false _ ▸ hfinite) ?_
    rintro ⟨items, hset, -⟩
    cases hset
  | @set items =>
    cases hkept
    refine ⟨fun h => ⟨items, rfl, exists_holdsNonFinite items h⟩, ?_⟩
    rintro ⟨_, hset, item, hitem, hn⟩
    cases hset
    exact not_allFinite_of_mem hitem hn.isFinite

end RowQuery.Value
