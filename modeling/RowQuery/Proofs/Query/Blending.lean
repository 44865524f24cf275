import RowQuery.Proofs.Number.Fixed
import RowQuery.Proofs.Query.Typing

/-!
# Blended sorts

What a sort by place rank and distance is called on the wire is put together from the texts of its two weights.
Main statement: it is an object in the strict grammar of JSON all the same, of two numbers that are the
weights, and whatever is no weight is refused before anything is written.
-/

namespace RowQuery

open RowQuery.Action (effect Fails)
open Json (Numeral IsBody IsData IsDocument AreMembers)

set_option autoImplicit false

namespace Store

def addSort (s : Store) (token : Text) : Store :=
  s.put (.text Parameter.sort.name) (.commaList (s.listed .sort ++ [.text token]))

end Store

/-! ## Weights -/

namespace Value

/-- What a blended sort accepts: a whole number that can be written, or a finite one. -/
def IsWeight : Value → Prop
  | int n => Decimal.length n.natAbs ≤ Literal.maxIntDigits
  | float x => x.isFinite = true
  | _ => False

/-- The number text says what the weight is: a whole number exactly and without a fraction, another one with
two places and within half a hundredth. -/
def Weighs : Value → Numeral → Prop
  | int n, m => m.fraction = [] ∧ m.exponent = none ∧ m.value = n
  | float x, m => m.fraction.length = 2 ∧ m.exponent = none ∧ |m.value - x.exact| ≤ 1 / 200
  | _, _ => False

/-- A weight is written as a number of the JSON grammar, close to its value. -/
theorem IsWeight.render {v : Value} (h : v.IsWeight) : ∃ m, v.render = .ok m.text ∧ v.Weighs m := by
  cases v with
  | int n =>
    have htext : intText n = .ok (Text.ofInt n) := if_neg (Nat.not_lt.2 h)
    exact ⟨.ofInt n, htext.trans (congrArg Except.ok (Numeral.text_ofInt n).symm),
      rfl, rfl, Numeral.value_ofInt n⟩
  | float x =>
    obtain ⟨m, hm, hweighs⟩ := Binary64.exists_numeral_toFixed h
    exact ⟨m, congrArg Except.ok hm, hweighs⟩
  | _ => exact h.elim

end Value

namespace Query

theorem effect_checkWeight {v : Value} (h : v.IsWeight) (name : Text) (s : Store) :
    effect (checkWeight name v) s = (.ok (), s) := by
  cases v with
  | int n => rfl
  | float x =>
    have hfinite : x.isFinite = true := h
    simp [checkWeight, hfinite]
  | _ => exact h.elim

/-- What is no weight fails the check, or it is a whole number that cannot be written. -/
theorem fails_of_not_isWeight {v : Value} (h : ¬ v.IsWeight) :
    (∀ name (s : Store), Fails (checkWeight name v) s) ∨ ∀ s : Store, Fails (renderWeight v) s := by
  cases v with
  | int n =>
    have htext : intText n = .error .tooManyDigits := if_pos (Nat.not_le.1 h)
    have hrender : (Value.int n).render = .error .tooManyDigits := htext
    exact .inr fun s => ⟨_, by rw [renderWeight, hrender]; rfl⟩
  | float x =>
    refine .inl fun name s => ?_
    have hfinite : x.isFinite = false := Bool.eq_false_iff.2 h
    simp only [checkWeight, hfinite, Bool.false_eq_true, if_false]
    exact Action.fails_refuse _ _ s
  | _ => exact .inl fun name s => Action.fails_refuse _ _ s

theorem fails_sortBlend {r d : Value} (h : ¬ (r.IsWeight ∧ d.IsWeight)) (s : Store) :
    Fails (sortBlend r d) s := by
  by_cases hr : r.IsWeight
  · rcases fails_of_not_isWeight (not_and.1 h hr) with hcheck | hrender
    · apply (keeps_checkWeight _ r).fails_bind
      intro _
      exact (hcheck _ s).bind _
    · apply (keeps_checkWeight _ r).fails_bind
      intro _
      apply (keeps_checkWeight _ d).fails_bind
      intro _
      apply (keeps_renderWeight r).fails_bind
      intro rank
      exact (hrender s).bind _
  · rcases fails_of_not_isWeight hr with hcheck | hrender
    · exact (hcheck _ s).bind _
    · apply (keeps_checkWeight _ r).fails_bind
      intro _
      apply (keeps_checkWeight _ d).fails_bind
      intro _
      exact (hrender s).bind _

/-- Two weights are added to the sorts as one blend. -/
theorem effect_sortBlend {r d : Value} (hr : r.IsWeight) (hd : d.IsWeight) {rank distance : Text}
    (hrank : r.render = .ok rank) (hdistance : d.render = .ok distance) {s : Store} (hs : s.Lists .sort) :
    effect (sortBlend r d) s = (.ok (), s.addSort (blendToken rank distance)) := by
  have happend := Store.effect_appendParameter hs (v := .text (blendToken rank distance)) rfl
  simp only [sortBlend, Action.effect_bind, effect_checkWeight hr, effect_checkWeight hd, renderWeight,
    Action.effect_lift, hrank, hdistance, Except.mapError, Action.andThen_ok]
  exact happend

/-- Where the sorts are no comma list, whatever is passed fails. -/
theorem fails_sortBlend_closed (r d : Value) {s : Store} (hs : ¬ s.Lists .sort) :
    Fails (sortBlend r d) s := by
  apply (keeps_checkWeight _ r).fails_bind
  intro _
  apply (keeps_checkWeight _ d).fails_bind
  intro _
  apply (keeps_renderWeight r).fails_bind
  intro rank
  apply (keeps_renderWeight d).fails_bind
  intro distance
  exact Store.fails_appendParameter hs _

/-! ## Blends as JSON -/

/-- The object of a blend, in the strict grammar. -/
theorem isDocument_blendToken (m n : Numeral) :
    IsDocument (blendToken m.text n.text)
      (.object [("placerank", .number m), ("distance", .number n)]) := by
  have hrank : IsBody "placerank" := .of_plain (by decide)
  have hdistance : IsBody "distance" := .of_plain (by decide)
  have hmembers := AreMembers.more ((IsData.number m).isMember hrank)
    (.last ((IsData.number n).isMember hdistance))
  have hobject := (IsData.object hmembers).isDocument
  simpa [blendToken, Text.ofString, Text.ofChars] using hobject

/-- A blended sort of two weights adds a strict JSON object of them to the sorts, in the order of its arguments,
unless an entry of another kind stands where the sorts do. With all other values it fails, and wherever it
fails it leaves the query as it was. -/
theorem sortBlend_document (r d : Value) :
    (r.IsWeight ∧ d.IsWeight → ∃ token m n,
      IsDocument token (.object [("placerank", .number m), ("distance", .number n)]) ∧
        r.Weighs m ∧ d.Weighs n ∧
        ∀ s : Store, s.Lists .sort → effect (sortBlend r d) s = (.ok (), s.addSort token)) ∧
      ∀ s : Store, ¬ (r.IsWeight ∧ d.IsWeight ∧ s.Lists .sort) → Fails (sortBlend r d) s := by
  refine ⟨fun ⟨hr, hd⟩ => ?_, fun s hfails => ?_⟩
  · obtain ⟨m, hrank, hm⟩ := hr.render
    obtain ⟨n, hdistance, hn⟩ := hd.render
    exact ⟨blendToken m.text n.text, m, n, isDocument_blendToken m n, hm, hn,
      fun _ hs => effect_sortBlend hr hd hrank hdistance hs⟩
  · by_cases hs : s.Lists .sort
    · exact fails_sortBlend (fun h => hfails ⟨h.1, h.2, hs⟩) s
    · exact fails_sortBlend_closed r d hs

/-- The smallest negative number, which has only zeros in its two places. -/
def tiny : Binary64 := .finite true ⟨1, by decide⟩

theorem render_tiny : (Value.float tiny).render = .ok "-0.00" := by
  have hfixed : tiny.toFixed = Text.ofString "-0.00" := by decide +kernel
  exact congrArg Except.ok hfixed

theorem sortBlend_document_tiny :
    ∃ m n : Numeral,
      IsDocument (Text.ofString "\x7b\"placerank\":-3,\"distance\":-0.00\x7d")
        (.object [("placerank", .number m), ("distance", .number n)]) ∧
      (Value.int (-3)).Weighs m ∧ (Value.float tiny).Weighs n ∧
      Fails (sortBlend (.bool true) (.float tiny)) (Store.empty Family.defaultKey) := by
  have hr : (Value.int (-3)).IsWeight := show Decimal.length 3 ≤ Literal.maxIntDigits by decide
  have hd : (Value.float tiny).IsWeight := rfl
  obtain ⟨token, m, n, hdocument, hm, hn, heffect⟩ :=
    (sortBlend_document (.int (-3)) (.float tiny)).1 ⟨hr, hd⟩
  -- The two accounts of the call on a query without sorts agree in the token.
  have hempty : (Store.empty Family.defaultKey).Lists .sort := nofun
  have hadded := heffect _ hempty
  rw [effect_sortBlend hr hd (show (Value.int (-3)).render = .ok "-3" by rfl) render_tiny hempty] at hadded
  cases hadded
  exact ⟨m, n, hdocument, hm, hn, (sortBlend_document (.bool true) (.float tiny)).2 _ fun h => h.1⟩

end Query

end RowQuery
