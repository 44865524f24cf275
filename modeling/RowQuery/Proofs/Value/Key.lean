import RowQuery.Value.Key

/-!
# Texts as keys

A text is one key with itself and with the words of which it is the wire form, and with no other value.
So in a mapping with texts as keys look-up and insertion go by equality of texts.
-/

namespace RowQuery.Value

set_option autoImplicit false

theorem sameKey_congr {a a' b b' : Value} (ha : a'.key = a.key) (hb : b'.key = b.key) :
    sameKey a' b' = sameKey a b := by
  rw [sameKey, sameKey, ha, hb]

@[simp] theorem sameKey_text (a b : Text) : sameKey (.text a) (.text b) = decide (a = b) := by
  simp [sameKey, key, Key.isProper]

/-- The values whose key is a text are the text and the words of which it is the wire form. -/
theorem text?_of_key {v : Value} {t : Text} (h : v.key = .ok (.text t)) : v.text? = some t := by
  cases v with
  | text | word =>
    cases h
    rfl
  | null | bool | int | octets | circle | rectangle | query | store => cases h
  | float x =>
    have hx : Key.ofFloat x = .text t := Except.ok.inj h
    unfold Key.ofFloat at hx
    cases hi : x.toInt? <;> rw [hi] at hx <;> cases hx
  | list | set | mapping => cases h
  | tuple items =>
    rw [key] at h
    cases hi : keys items with
    | error e => rw [hi] at h; cases h
    | ok ks => rw [hi] at h; cases ks <;> cases h
  | filter f =>
    rw [key] at h
    cases f with
    | field name operator v =>
      rw [filterKey] at h
      cases hv : v.key <;> rw [hv] at h <;> cases h
    | group c fs =>
      rw [filterKey] at h
      cases hf : filterKeys fs <;> rw [hf] at h <;> cases h

/-- A word has the key of its text. -/
theorem key_of_text? {v : Value} {t : Text} (h : v.text? = some t) : v.key = .ok (.text t) := by
  cases v <;> cases h <;> rfl

/-- The keys that are one with a text are the text itself and the words that it writes. -/
theorem sameKey_text_iff {v : Value} {t : Text} : sameKey v (.text t) = true ↔ v.text? = some t := by
  constructor
  · intro h
    obtain ⟨k, hv, ht, -⟩ := sameKey_iff.1 h
    cases ht
    exact text?_of_key hv
  · intro h
    exact sameKey_iff.2 ⟨.text t, key_of_text? h, rfl, rfl⟩

theorem lookup?_cons_text (k l : Text) (v : Value) (ms : List (Value × Value)) :
    lookup? ((.text k, v) :: ms) (.text l) = if k = l then some v else lookup? ms (.text l) := by
  by_cases h : k = l <;> simp [lookup?, h]

/-- A key that is new to a mapping goes to its end. -/
theorem insertMember_of_new {kept : List (Value × Value)} {k : Text} (v : Value)
    (hk : ∀ m ∈ kept, sameKey m.1 (.text k) = false) :
    insertMember kept (.text k) v = kept ++ [(.text k, v)] := by
  induction kept with
  | nil => rfl
  | cons m kept ih =>
    rw [insertMember, if_neg (by simp [hk m List.mem_cons_self]),
      ih fun n hn => hk n (List.mem_cons_of_mem _ hn), List.cons_append]

end RowQuery.Value
