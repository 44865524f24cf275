import RowQuery.Proofs.Store.Steps
import RowQuery.Query.Handle

/-!
# Families of stores

Putting a store changes one member of a family. Before and after each call the queries that the
receiver holds are brought up to date, which touches neither row filters nor the other members.
-/

namespace RowQuery

open RowQuery.Action (effect)
open Value (sameKey)

set_option autoImplicit false

namespace Family

theorem findMember_cons (n : Text) (t : Store) (ms : List (Text × Store)) (name : Text) :
    findMember ((n, t) :: ms) name = if n = name then t else findMember ms name := by
  by_cases h : n = name <;> simp [findMember, h]

@[simp] theorem get_put_same (family : Family) (name : Text) (s : Store) :
    (put name s family).get name = s := by
  obtain ⟨ms⟩ := family
  change findMember (insertMember ms name s) name = s
  induction ms with
  | nil => rw [insertMember, findMember_cons, if_pos rfl]
  | cons m ms ih =>
    obtain ⟨n, t⟩ := m
    rw [insertMember]
    split
    · next h => rw [findMember_cons, if_pos h]
    · next h => rw [findMember_cons, if_neg h, ih]

/-- A store that is put in hides no other one. -/
theorem get_put_other {name other : Text} (h : other ≠ name) (family : Family) (s : Store) :
    (put name s family).get other = family.get other := by
  obtain ⟨ms⟩ := family
  change findMember (insertMember ms name s) other = findMember ms other
  induction ms with
  | nil => rw [insertMember, findMember_cons, if_neg h.symm]
  | cons m ms ih =>
    obtain ⟨n, t⟩ := m
    rw [insertMember]
    split
    · next hn => rw [findMember_cons, findMember_cons, if_neg (hn ▸ h.symm), if_neg (hn ▸ h.symm)]
    · rw [findMember_cons, findMember_cons, ih]

/-- Of two stores that are put under one name the last one counts. -/
theorem put_put (family : Family) (name : Text) (s t : Store) :
    (family.put name s).put name t = family.put name t := by
  obtain ⟨members⟩ := family
  refine congrArg Family.mk ?_
  change insertMember (insertMember members name s) name t = insertMember members name t
  induction members with
  | nil => simp [insertMember]
  | cons m ms ih =>
    obtain ⟨n, u⟩ := m
    by_cases hn : n = name
    · simp [insertMember, hn]
    · simp [insertMember, hn, ih]

theorem effect_focus {α : Type} (name : Text) (x : Action Store α) (family : Family) :
    effect (focus name x) family =
      ((effect x (family.get name)).1, put name (effect x (family.get name)).2 family) := rfl

end Family

/-! ## Bringing queries up to date -/

namespace Value

@[simp] theorem text?_withQueries_self (f : Text → QueryHandle) (v : Value) :
    (v.withQueries f).text? = v.text? := by
  cases v <;> rfl

/-- A key that is brought up to date is the same text as before, or none as before. -/
theorem sameKey_withQueries (f : Text → QueryHandle) (v : Value) (t : Text) :
    sameKey (v.withQueries f) (.text t) = sameKey v (.text t) := by
  rw [Bool.eq_iff_iff, sameKey_text_iff, sameKey_text_iff, text?_withQueries_self]

end Value

namespace Store

theorem get?_withQueries (f : Text → QueryHandle) (s : Store) (t : Text) :
    (s.withQueries f).get? (.text t) = (s.get? (.text t)).map (Entry.withQueries f) := by
  obtain ⟨key, es⟩ := s
  change findEntry? (es.map fun e => (e.1.withQueries f, e.2.withQueries f)) (.text t) =
    (Option.map (Entry.withQueries f) <| findEntry? es (.text t))
  induction es with
  | nil => rfl
  | cons e es ih =>
    rw [List.map_cons, findEntry?_cons, findEntry?_cons, Value.sameKey_withQueries, ih]
    split <;> rfl

@[simp] theorem rowFilters_withQueries (f : Text → QueryHandle) (s : Store) :
    (s.withQueries f).rowFilters = s.rowFilters := by
  have hkey : (s.withQueries f).rowFilterKey = s.rowFilterKey := rfl
  unfold rowFilters
  rw [hkey, get?_withQueries]
  cases s.get? (.text s.rowFilterKey) with
  | none => rfl
  | some e => cases e <;> rfl

end Store

namespace Family

/-- An action on a family, around which the queries in one store are brought up to date. -/
def upToDate {α : Type} (self : Text) (x : Action Family α) : Action Family α := fun family =>
  let o := x (family.refresh self)
  ⟨o.result, o.state.refresh self, o.events⟩

/-- An action between two updates of the queries in a store. -/
theorem effect_upToDate {α : Type} (self : Text) (x : Action Family α) (family : Family) :
    effect (upToDate self x) family =
      ((effect x (family.refresh self)).1, (effect x (family.refresh self)).2.refresh self) := rfl

theorem refresh_put_self (family : Family) (self : Text) :
    (family.refresh self).put self ((family.refresh self).get self) = family.refresh self := by
  unfold refresh
  rw [get_put_same, put_put]

/-- A property of stores that holds of every member of a family. -/
def All (p : Store → Prop) (family : Family) : Prop := ∀ name, p (family.get name)

theorem All.put {p : Store → Prop} {family : Family} (h : family.All p) {name : Text} {s : Store}
    (hs : p s) : (family.put name s).All p := by
  intro other
  by_cases ho : other = name
  · rw [ho, get_put_same]
    exact hs
  · rw [get_put_other ho]
    exact h other

end Family

end RowQuery
