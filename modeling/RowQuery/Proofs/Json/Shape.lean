import RowQuery.Json.Basic
import RowQuery.Proofs.Value.Key
import RowQuery.Value.Equality

/-!
# The shape of JSON data

Data is settled when no object in it repeats a key, at any depth. The values of settled data are
equal to themselves unless a NaN occurs in them, and they can be inspected unless an integer in them
has too many digits.
-/

namespace RowQuery

open Value (sameKey lookup? equal equalAll submapping inspect inspectAll inspectMembers)

set_option autoImplicit false

namespace Json

mutual

/-- No object in the data repeats a key. -/
def Settled : Json → Prop
  | array js => SettledItems js
  | object ms => SettledMembers ms
  | _ => True

def SettledItems : List Json → Prop
  | [] => True
  | j :: js => Settled j ∧ SettledItems js

def SettledMembers : List (Text × Json) → Prop
  | [] => True
  | (k, j) :: ms => (∀ m ∈ ms, m.1 ≠ k) ∧ Settled j ∧ SettledMembers ms

end

mutual

/-- A property of all atoms of the data. The keys of objects count as texts. -/
def Every (atom : Json → Prop) : Json → Prop
  | array js => EveryItem atom js
  | object ms => EveryMember atom ms
  | j => atom j

def EveryItem (atom : Json → Prop) : List Json → Prop
  | [] => True
  | j :: js => Every atom j ∧ EveryItem atom js

def EveryMember (atom : Json → Prop) : List (Text × Json) → Prop
  | [] => True
  | (k, j) :: ms => atom (text k) ∧ Every atom j ∧ EveryMember atom ms

end

/-- An integer has a text. -/
def Short : Json → Prop
  | int n => Decimal.length n.natAbs ≤ Literal.maxIntDigits
  | _ => True

/-- A double precision number is no NaN and no infinity. -/
def Finite : Json → Prop
  | float x => x.isFinite = true
  | _ => True

/-- An atom that JSON text can be written for. -/
def Writable (j : Json) : Prop := j.Short ∧ j.Finite

mutual

/-- A weaker property of atoms holds as well. -/
theorem Every.imp {p q : Json → Prop} (hpq : ∀ j, p j → q j) : ∀ j : Json, j.Every p → j.Every q
  | .null, h | .bool _, h | .int _, h | .float _, h | .text _, h => hpq _ h
  | .array js, h => EveryItem.imp hpq js h
  | .object ms, h => EveryMember.imp hpq ms h

theorem EveryItem.imp {p q : Json → Prop} (hpq : ∀ j, p j → q j) :
    ∀ js : List Json, EveryItem p js → EveryItem q js
  | [], _ => trivial
  | j :: js, h => ⟨Every.imp hpq j h.1, EveryItem.imp hpq js h.2⟩

theorem EveryMember.imp {p q : Json → Prop} (hpq : ∀ j, p j → q j) :
    ∀ ms : List (Text × Json), EveryMember p ms → EveryMember q ms
  | [], _ => trivial
  | (_, j) :: ms, h => ⟨hpq _ h.1, Every.imp hpq j h.2.1, EveryMember.imp hpq ms h.2.2⟩

end

mutual

/-- Data of finite numbers stands for a finite value. -/
theorem isFinite_toValue : ∀ j : Json, j.Every Finite → j.toValue.isFinite = true
  | .null, _ | .bool _, _ | .int _, _ | .text _, _ => rfl
  | .float _, h => h
  | .array js, h => allFinite_toValues js h
  | .object ms, h => allMembersFinite_toMembers ms h

theorem allFinite_toValues :
    ∀ js : List Json, EveryItem Finite js → Value.allFinite (toValues js) = true
  | [], _ => rfl
  | j :: js, h => Bool.and_eq_true_iff.2 ⟨isFinite_toValue j h.1, allFinite_toValues js h.2⟩

theorem allMembersFinite_toMembers :
    ∀ ms : List (Text × Json), EveryMember Finite ms →
      Value.allMembersFinite (toMembers ms) = true
  | [], _ => rfl
  | (_, j) :: ms, h =>
    Bool.and_eq_true_iff.2 ⟨isFinite_toValue j h.2.1, allMembersFinite_toMembers ms h.2.2⟩

end

/-- In settled data a member is found under its key. -/
theorem lookup?_toMembers {ms : List (Text × Json)} (hs : SettledMembers ms) {k : Text} {j : Json}
    (hm : (k, j) ∈ ms) : lookup? (toMembers ms) (.text k) = some j.toValue := by
  induction ms with
  | nil => cases hm
  | cons m ms ih =>
    obtain ⟨l, i⟩ := m
    obtain ⟨hne, -, hs⟩ := hs
    rw [toMembers, Value.lookup?_cons_text]
    rcases List.mem_cons.1 hm with he | hm
    · cases he
      rw [if_pos rfl]
    · rw [if_neg fun he => hne _ hm he.symm, ih hs hm]

/-! ## Equality -/

mutual

/-- Data without a NaN is equal to itself. -/
theorem equal_self : ∀ j : Json, j.Settled → j.toValue.isFinite = true →
    equal j.toValue j.toValue = true
  | .null, _, _ => by simp [toValue, equal, Value.sameAtom, Value.quantity?, Value.text?, sameKey,
      Value.key, Key.isProper]
  | .bool b, _, _ => by simp [toValue, equal, Value.sameAtom, Value.quantity?, Value.sameQuantity]
  | .int n, _, _ => by simp [toValue, equal, Value.sameAtom, Value.quantity?, Value.sameQuantity]
  | .float x, _, hf => by
    cases x with
    | undefined => cases hf
    | infinite => cases hf
    | finite => simp [toValue, equal, Value.sameAtom, Value.quantity?, Value.sameQuantity,
        Binary64.sameQuantity]
  | .text t, _, _ => by simp [toValue, equal, Value.sameAtom, Value.quantity?, Value.text?]
  | .array js, hs, hf => by
    rw [toValue, equal]
    exact equalAll_self js hs hf
  | .object ms, hs, hf => by
    rw [toValue, equal, submapping_self ms ms hs hs hf fun m hm => hm]
    simp

theorem equalAll_self : ∀ js : List Json, SettledItems js →
    Value.allFinite (toValues js) = true → equalAll (toValues js) (toValues js) = true
  | [], _, _ => by rw [toValues, equalAll]
  | j :: js, hs, hf => by
    obtain ⟨hj, hjs⟩ := Bool.and_eq_true_iff.1 hf
    rw [toValues, equalAll, equal_self j hs.1 hj, equalAll_self js hs.2 hjs, Bool.or_true, Bool.and_self]

theorem submapping_self : ∀ ms ns : List (Text × Json), SettledMembers ms → SettledMembers ns →
    Value.allMembersFinite (toMembers ms) = true → (∀ m ∈ ms, m ∈ ns) →
    submapping (toMembers ms) (toMembers ns) = true
  | [], _, _, _, _, _ => by rw [toMembers, submapping]
  | (k, j) :: ms, ns, hs, hns, hf, hsub => by
    obtain ⟨hj, hms⟩ := Bool.and_eq_true_iff.1 hf
    have hrest := submapping_self ms ns hs.2.2 hns hms fun m hm =>
      hsub m (List.mem_cons_of_mem _ hm)
    rw [toMembers, submapping, lookup?_toMembers hns (hsub _ List.mem_cons_self), hrest,
      Option.any_some, equal_self j hs.2.1 hj, Bool.or_true, Bool.and_self]

end

/-! ## Inspection -/

/-- A text exists, or an integer of too many digits is in the way. -/
def Shows {α : Type} (short : Prop) (shown : Except RenderFailure α) : Prop :=
  (∃ a, shown = .ok a) ∨ shown = .error .tooManyDigits ∧ ¬ short

theorem Shows.imp {α : Type} {p q : Prop} {x : Except RenderFailure α} (hx : Shows p x)
    (hqp : q → p) : Shows q x :=
  hx.imp_right fun h => ⟨h.1, fun hq => h.2 (hqp hq)⟩

/-- Of two steps the first failure counts. -/
theorem Shows.bind {α β : Type} {p : Prop} {x : Except RenderFailure α}
    {f : α → Except RenderFailure β} (hx : Shows p x) (hf : ∀ a, Shows p (f a)) :
    Shows p (x >>= f) := by
  rcases hx with ⟨a, rfl⟩ | ⟨rfl, hp⟩
  · exact hf a
  · exact .inr ⟨rfl, hp⟩

theorem intText_shows (n : Int) : Shows (Short (.int n)) (intText n) := by
  unfold intText
  split
  · next h => exact .inr ⟨rfl, Nat.not_le.2 h⟩
  · exact .inl ⟨_, rfl⟩

mutual

/-- Data is inspected unless an integer in it has too many digits. -/
theorem inspect_shows : ∀ j : Json, Shows (j.Every Short) (inspect j.toValue)
  | .null => .inl ⟨_, rfl⟩
  | .bool _ => .inl ⟨_, rfl⟩
  | .int n => intText_shows n
  | .float _ => .inl ⟨_, rfl⟩
  | .text _ => .inl ⟨_, rfl⟩
  | .array js => (inspectAll_shows js).bind fun _ => .inl ⟨_, rfl⟩
  | .object ms => (inspectMembers_shows ms).bind fun _ => .inl ⟨_, rfl⟩

theorem inspectAll_shows : ∀ js : List Json, Shows (EveryItem Short js) (inspectAll (toValues js))
  | [] => .inl ⟨_, rfl⟩
  | j :: js => by
    have hj := (inspect_shows j).imp fun h : EveryItem Short (j :: js) => h.1
    have hjs := (inspectAll_shows js).imp fun h : EveryItem Short (j :: js) => h.2
    apply hj.bind
    intro t
    apply hjs.bind
    intro ts
    exact .inl ⟨_, rfl⟩

theorem inspectMembers_shows :
    ∀ ms : List (Text × Json), Shows (EveryMember Short ms) (inspectMembers (toMembers ms))
  | [] => .inl ⟨_, rfl⟩
  | (k, j) :: ms => by
    have hj := (inspect_shows j).imp fun h : EveryMember Short ((k, j) :: ms) => h.2.1
    have hms := (inspectMembers_shows ms).imp fun h : EveryMember Short ((k, j) :: ms) => h.2.2
    apply hj.bind
    intro t
    apply hms.bind
    intro rest
    exact .inl ⟨_, rfl⟩

end

end Json

end RowQuery
