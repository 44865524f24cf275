import RowQuery.Proofs.Json.Encoding

/-!
# Conditions on data and on its value

A condition on the atoms of data can be read off the value that the data stands for: whether a NaN or
an infinity is in it, and whether a lone surrogate half is.
-/

namespace RowQuery

set_option autoImplicit false

namespace Value

mutual

/-- Whether no text in the value holds a lone surrogate half, at any depth. Keys count as well. -/
def isWellFormed : Value → Bool
  | text t => t.isWellFormed
  | list items | tuple items | set items => allWellFormed items
  | mapping members => allMembersWellFormed members
  | _ => true

def allWellFormed : List Value → Bool
  | [] => true
  | v :: vs => v.isWellFormed && allWellFormed vs

def allMembersWellFormed : List (Value × Value) → Bool
  | [] => true
  | (k, v) :: ms => k.isWellFormed && (v.isWellFormed && allMembersWellFormed ms)

end

end Value

namespace Json

mutual

/-- A value of JSON data is well formed exactly when all texts in the data are. -/
theorem isWellFormed_toValue : ∀ j : Json, j.toValue.isWellFormed = true ↔ j.Every WellFormedAtom
  | null | bool _ | int _ | float _ => ⟨fun _ => trivial, fun _ => rfl⟩
  | text _ => Iff.rfl
  | array js => allWellFormed_toValues js
  | object ms => allMembersWellFormed_toMembers ms

theorem allWellFormed_toValues : ∀ js : List Json,
    Value.allWellFormed (toValues js) = true ↔ EveryItem WellFormedAtom js
  | [] => ⟨fun _ => trivial, fun _ => rfl⟩
  | j :: js => by
    rw [toValues, Value.allWellFormed, Bool.and_eq_true, isWellFormed_toValue j,
      allWellFormed_toValues js, EveryItem]

theorem allMembersWellFormed_toMembers : ∀ ms : List (Text × Json),
    Value.allMembersWellFormed (toMembers ms) = true ↔ EveryMember WellFormedAtom ms
  | [] => ⟨fun _ => trivial, fun _ => rfl⟩
  | (k, j) :: ms => by
    rw [toMembers, Value.allMembersWellFormed, Bool.and_eq_true, Bool.and_eq_true,
      isWellFormed_toValue j, allMembersWellFormed_toMembers ms, EveryMember]
    rfl

end

mutual

theorem finite_of_toValue : ∀ j : Json, j.toValue.isFinite = true → j.Every Finite
  | null, _ | bool _, _ | int _, _ | text _, _ => trivial
  | float _, h => h
  | array js, h => finite_of_toValues js h
  | object ms, h => finite_of_toMembers ms h

theorem finite_of_toValues : ∀ js : List Json,
    Value.allFinite (toValues js) = true → EveryItem Finite js
  | [], _ => trivial
  | j :: js, h => by
    obtain ⟨hj, hjs⟩ := Bool.and_eq_true_iff.1 h
    exact ⟨finite_of_toValue j hj, finite_of_toValues js hjs⟩

theorem finite_of_toMembers : ∀ ms : List (Text × Json),
    Value.allMembersFinite (toMembers ms) = true → EveryMember Finite ms
  | [], _ => trivial
  | (_, j) :: ms, h => by
    obtain ⟨hj, hms⟩ := Bool.and_eq_true_iff.1 h
    exact ⟨trivial, finite_of_toValue j hj, finite_of_toMembers ms hms⟩

end

mutual

theorem Every.and {p q : Json → Prop} : ∀ j : Json, j.Every p → j.Every q →
    j.Every fun i => p i ∧ q i
  | null, hp, hq | bool _, hp, hq | int _, hp, hq | float _, hp, hq | text _, hp, hq => ⟨hp, hq⟩
  | array js, hp, hq => EveryItem.and js hp hq
  | object ms, hp, hq => EveryMember.and ms hp hq

theorem EveryItem.and {p q : Json → Prop} : ∀ js : List Json, EveryItem p js → EveryItem q js →
    EveryItem (fun i => p i ∧ q i) js
  | [], _, _ => trivial
  | j :: js, hp, hq => ⟨Every.and j hp.1 hq.1, EveryItem.and js hp.2 hq.2⟩

theorem EveryMember.and {p q : Json → Prop} : ∀ ms : List (Text × Json), EveryMember p ms →
    EveryMember q ms → EveryMember (fun i => p i ∧ q i) ms
  | [], _, _ => trivial
  | (_, j) :: ms, hp, hq =>
    ⟨⟨hp.1, hq.1⟩, Every.and j hp.2.1 hq.2.1, EveryMember.and ms hp.2.2 hq.2.2⟩

end

/-- Finite data whose integers have a text can be written. -/
theorem writable_of_short {j : Json} (hs : j.Every Short) (hf : j.toValue.isFinite = true) :
    j.Every Writable := Every.and j hs (finite_of_toValue j hf)

end Json

end RowQuery
