import RowQuery.Proofs.Query.Leaves
import RowQuery.Proofs.Store.Spelling

/-!
# Runs with words spelt out

Two runs of queries whose calls differ only in that some words are spelt out as their wire forms. Main
statement: after every call all queries have the same text in both runs. The exact search and the sorts
are different: they write what a word is called, not its wire form, and there the name is the spelling
that changes nothing.
-/

namespace RowQuery

open RowQuery.Action (effect Pairs Constant)
open RowQuery.Value (SpellsAll SpellsBelow)

set_option autoImplicit false

/-! ## Families -/

/-- The second family has the stores of the first one, in other spellings. -/
def Family.Spells (family other : Family) : Prop :=
  List.Forall₂ (fun m n => m.1 = n.1 ∧ m.2.Spells n.2) family.members other.members

namespace Family.Spells

variable {family other : Family}

theorem get (h : family.Spells other) (name : Text) : (family.get name).Spells (other.get name) := by
  obtain ⟨ms⟩ := family
  obtain ⟨ns⟩ := other
  change (findMember ms name).Spells (findMember ns name)
  change List.Forall₂ _ ms ns at h
  induction h with
  | nil => exact ⟨rfl, .nil⟩
  | @cons m n ms ns hm _ ih =>
    obtain ⟨k, s⟩ := m
    obtain ⟨l, t⟩ := n
    obtain ⟨rfl, hst⟩ := hm
    rw [findMember_cons, findMember_cons]
    split
    · exact hst
    · exact ih

/-- Families in two spellings stay so when stores in two spellings are put in. -/
theorem put (h : family.Spells other) (name : Text) {s t : Store} (hst : s.Spells t) :
    (family.put name s).Spells (other.put name t) := by
  obtain ⟨ms⟩ := family
  obtain ⟨ns⟩ := other
  change List.Forall₂ _ (insertMember ms name s) (insertMember ns name t)
  change List.Forall₂ _ ms ns at h
  induction h with
  | nil => exact .cons ⟨rfl, hst⟩ .nil
  | @cons m n ms ns hm hs ih =>
    obtain ⟨k, u⟩ := m
    obtain ⟨l, u'⟩ := n
    obtain ⟨rfl, hu⟩ := hm
    rw [insertMember, insertMember]
    split
    · exact .cons ⟨rfl, hst⟩ hs
    · exact .cons ⟨rfl, hu⟩ ih

/-- Queries as values are equal in both families. -/
theorem handle_eq (h : family.Spells other) : family.handle = other.handle := by
  have hwithin : ∀ depth, family.handleWithin depth = other.handleWithin depth := by
    intro depth
    induction depth with
    | zero => rfl
    | succ depth ih =>
      funext name
      have hstore := (h.get name).withQueries (other.handleWithin depth)
      simp only [handleWithin, ih, hstore.toQueryString, hstore.serializations]
  have hdepth : family.depth = other.depth := congrArg (· + 2) (List.Forall₂.length_eq h)
  funext name
  rw [handle, handle, hdepth, hwithin]

theorem current (h : family.Spells other) (name : Text) :
    (family.current name).Spells (other.current name) := by
  rw [Family.current, Family.current, h.handle_eq]
  exact (h.get name).withQueries other.handle

theorem refresh (h : family.Spells other) (name : Text) :
    (family.refresh name).Spells (other.refresh name) := by
  rw [refresh_eq, refresh_eq]
  exact h.put name (h.current name)

theorem joined (h : family.Spells other) (self : Text) (names : List Text) :
    RowFilter.SpellsAll (family.joined self names) (other.joined self names) :=
  RowFilter.SpellsAll.flatMap (fun name => (h.get name).rowFilters) _

end Family.Spells

namespace Family

theorem pairs_focus {α : Type} {ρ : α → α → Prop} {x y : Action Store α} (name : Text)
    (h : Pairs Store.Spells ρ x y) : Pairs Spells ρ (focus name x) (focus name y) := by
  intro family other hfamily
  obtain ⟨hresult, hstate⟩ := h _ _ (hfamily.get name)
  exact ⟨hresult, hfamily.put name hstate⟩

/-- A fold keeps two spellings of a family. -/
theorem pairs_fold (self : Text) (c : Combinator) (names : List Text) :
    Pairs Spells (fun _ _ => True) (fold self c names) (fold self c names) := by
  apply Pairs.bind (ρ := Spells) fun family other h => ⟨.ok h, h⟩
  intro family other h
  exact pairs_focus self (Store.pairs_fold c (h.joined self names))

theorem pairs_upToDate {α : Type} {ρ : α → α → Prop} {x y : Action Family α} (self : Text)
    (h : Pairs Spells ρ x y) : Pairs Spells ρ (upToDate self x) (upToDate self y) := by
  intro family other hfamily
  obtain ⟨hresult, hstate⟩ := h _ _ (hfamily.refresh self)
  exact ⟨hresult, hstate.refresh self⟩

end Family

namespace Query

/-! ## Arguments -/

/-- The second value is the first one or, for a word, the text that the word is called. -/
inductive Names : Value → Value → Prop
  | same (v : Value) : Names v v
  | word (w : Word) : Names (.word w) (.text w.qualifiedName)

/-- Lists of arguments in two spellings. One argument may be a tuple or a set of values. -/
inductive SpellsArguments : List Value → List Value → Prop
  | each {vs ws : List Value} (h : SpellsAll vs ws) : SpellsArguments vs ws
  | tuple {vs ws : List Value} (h : SpellsAll vs ws) : SpellsArguments [.tuple vs] [.tuple ws]
  | set {vs ws : List Value} (h : SpellsAll vs ws) : SpellsArguments [.set vs] [.set ws]

/-- A filter value in two spellings. A tuple or a set is kept as a list. -/
inductive SpellsOperand : Value → Value → Prop
  | value {v w : Value} (h : Value.Spells v w) : SpellsOperand v w
  | tuple {vs ws : List Value} (h : SpellsAll vs ws) : SpellsOperand (.tuple vs) (.tuple ws)
  | set {vs ws : List Value} (h : SpellsAll vs ws) : SpellsOperand (.set vs) (.set ws)

namespace SpellsOperand

variable {v w : Value}

theorem isFinite (h : SpellsOperand v w) : v.isFinite = w.isFinite := by
  cases h with
  | value h => exact h.isFinite
  | tuple h => exact h.allFinite
  | set => rfl

/-- An operand is kept of both spellings or of none. -/
theorem operand? (h : SpellsOperand v w) :
    v.operand? = none ∧ w.operand? = none ∨
      ∃ k l, v.operand? = some k ∧ w.operand? = some l ∧ SpellsBelow k l := by
  cases h with
  | value h => exact h.operand?
  | @tuple vs ws h => exact .inr ⟨.list vs, .list ws, rfl, rfl, .list h⟩
  | @set vs ws h => exact .inr ⟨.list vs, .list ws, rfl, rfl, .list h⟩

end SpellsOperand

theorem SpellsArguments.flatten {vs ws : List Value} (h : SpellsArguments vs ws) :
    SpellsAll (Query.flatten vs) (Query.flatten ws) := by
  cases h with
  | tuple h => exact h
  | set h => exact h
  | each h =>
    cases h with
    | nil => exact .nil
    | cons h hs =>
      cases hs with
      | cons h' hs' => exact .cons h (.cons h' hs')
      | nil =>
        cases h with
        | same v => exact .refl _
        | word w => exact .cons (.word w) .nil
        | list h => exact h

/-! ## Methods -/

variable {v w v' w' key key' : Value}

theorem constant_wholeNumber (name : Text) (v : Value) : Constant (wholeNumber name v) := by
  unfold wholeNumber
  split
  · exact Action.constant_pure _
  · split
    · exact Action.constant_pure _
    · exact Action.constant_refuse _ _
  · exact Action.constant_refuse _ _

theorem constant_checkWeight (name : Text) (v : Value) : Constant (checkWeight name v) := by
  unfold checkWeight
  split
  · exact Action.constant_pure _
  · split
    · exact Action.constant_pure _
    · exact Action.constant_refuse _ _
  · exact Action.constant_refuse _ _

theorem pairs_wholeNumber (name : Text) (h : Value.Spells v w) :
    Pairs Store.Spells Eq (wholeNumber name v) (wholeNumber name w) := by
  cases h with
  | same => exact .of_constant (constant_wholeNumber name v)
  | word => exact .of_fails (Action.fails_refuse _ _) (Action.fails_refuse _ _)
  | list => exact .of_fails (Action.fails_refuse _ _) (Action.fails_refuse _ _)

theorem pairs_setParameter (p : Parameter) (h : Value.Spells v w) :
    Pairs Store.Spells Eq (setParameter p v) (setParameter p w) :=
  Store.pairs_set _ h

/-- A parameter that is a whole number. -/
theorem pairs_setWhole (p : Parameter) (name : Text) (h : Value.Spells v w) :
    Pairs Store.Spells Eq (do setParameter p (.int (← wholeNumber name v)))
      (do setParameter p (.int (← wholeNumber name w))) := by
  apply (pairs_wholeNumber name h).bind
  rintro n _ rfl
  exact pairs_setParameter p (.same _)

/-- The exact search and the sorts show their argument, and show a word by its name. -/
theorem pairs_displayed (h : Names v w) :
    Pairs Store.Spells (fun a b => a.text = b.text) (Action.displayed v) (Action.displayed w) := by
  intro s t hst
  rw [Action.effect_displayed, Action.effect_displayed]
  refine ⟨?_, hst⟩
  cases h with
  | same =>
    cases v.displayed with
    | ok shown => exact .ok rfl
    | error e => exact .error e e
  | word w => exact .ok rfl

theorem pairs_searchExact (h : Names v w) :
    Pairs Store.Spells Eq (searchExact v) (searchExact w) := by
  apply (pairs_displayed h).bind
  intro a b hab
  rw [hab]
  exact pairs_setParameter .search (.same _)

theorem pairs_sort (direction : Direction) (h : Names v w) :
    Pairs Store.Spells Eq (sort direction v) (sort direction w) := by
  apply (pairs_displayed h).bind
  intro a b hab
  rw [hab]
  exact Store.pairs_append _ (.same _)

theorem pairs_within (h : Value.Spells v w) : Pairs Store.Spells Eq (within v) (within w) := by
  cases h with
  | same =>
    unfold within
    cases v.shapeFilter? with
    | some f => exact Store.pairs_addRowFilter (.same f)
    | none => exact .of_fails (Action.fails_fail _) (Action.fails_fail _)
  | word => exact .of_fails (Action.fails_fail _) (Action.fails_fail _)
  | list => exact .of_fails (Action.fails_fail _) (Action.fails_fail _)

theorem pairs_addFilter (h : Value.Spells v w) :
    Pairs Store.Spells Eq (Store.addFilter v) (Store.addFilter w) := by
  cases h with
  | same =>
    unfold Store.addFilter
    split
    · exact Store.pairs_addRowFilter (.same _)
    · exact .of_fails (Action.fails_fail _) (Action.fails_fail _)
  | word => exact .of_fails (Action.fails_fail _) (Action.fails_fail _)
  | list => exact .of_fails (Action.fails_fail _) (Action.fails_fail _)

/-- A weight is no word and no list, so both weights are the same or both are refused. -/
theorem pairs_checkWeight (name : Text) (h : Value.Spells v w) :
    Pairs Store.Spells (fun _ _ => v = w) (checkWeight name v) (checkWeight name w) := by
  cases h with
  | same =>
    intro s t hst
    obtain ⟨hresult, hstate⟩ := Pairs.of_constant (R := Store.Spells)
      (constant_checkWeight name v) s t hst
    refine ⟨?_, hstate⟩
    generalize (effect (checkWeight name v) s).1 = r at hresult
    generalize (effect (checkWeight name v) t).1 = r' at hresult
    cases hresult with
    | ok => exact .ok rfl
    | error e e' => exact .error e e'
  | word => exact .of_fails (Action.fails_refuse _ _) (Action.fails_refuse _ _)
  | list => exact .of_fails (Action.fails_refuse _ _) (Action.fails_refuse _ _)

theorem pairs_sortBlend (h : Value.Spells v w) (h' : Value.Spells v' w') :
    Pairs Store.Spells Eq (sortBlend v v') (sortBlend w w') := by
  apply (pairs_checkWeight _ h).bind
  rintro _ _ rfl
  apply (pairs_checkWeight _ h').bind
  rintro _ _ rfl
  apply (Pairs.of_constant (Action.constant_lift _)).bind
  rintro r _ rfl
  apply (Pairs.of_constant (Action.constant_lift _)).bind
  rintro d _ rfl
  exact Store.pairs_append _ (.same _)

theorem pairs_includeRowCount (h : Value.Spells v w) :
    Pairs Store.Spells Eq (includeRowCount v) (includeRowCount w) := by
  rw [includeRowCount, includeRowCount, h.isTruthy]
  exact pairs_setParameter .includeCount (.same _)

theorem pairs_only {vs ws : List Value} (h : SpellsArguments vs ws) :
    Pairs Store.Spells Eq (only vs) (only ws) :=
  Pairs.forEach (fun _ _ h => Store.pairs_append _ h) h.flatten.forall₂

/-- Both spellings of a key and an operand make a predicate, or none does. -/
theorem paired_makeField (operator : Operator) (hkey : Value.Spells key key')
    (hv : SpellsOperand v w) :
    Action.PairedResult RowFilter.Spells (RowFilter.makeField (predicateParts key operator v))
      (RowFilter.makeField (predicateParts key' operator w)) := by
  rw [makeField_predicateParts_eq, makeField_predicateParts_eq]
  unfold RowFilter.checkKey RowFilter.checkValue
  simp only [Option.bind_some, Option.getD_some, hkey.looseText?]
  cases key'.looseText? with
  | none => exact .error _ _
  | some k =>
    rcases hv.operand? with ⟨hl, hr⟩ | ⟨kept, kept', hl, hr, hkept⟩
    · rw [hl, hr]
      exact .error _ _
    · simp only [hl, hr, hkept.spells.isFinite]
      cases kept'.isFinite with
      | true => exact .ok (.field k _ hkept)
      | false => exact .error _ _

theorem pairs_addPredicate (operator : Operator) (hkey : Value.Spells key key')
    (hv : SpellsOperand v w) :
    Pairs Store.Spells Eq (addPredicate key operator v) (addPredicate key' operator w) := by
  unfold addPredicate
  rw [hv.isFinite]
  split
  · exact Store.pairs_refuse _ _ _ _ _ _
  · apply (Pairs.of_lift (paired_makeField operator hkey hv)).bind
    intro f g hfg
    exact Store.pairs_addRowFilter hfg

/-- Which queries a fold reads does not depend on the spelling: queries are no words. -/
theorem paired_sourceNames {vs ws : List Value} (h : SpellsAll vs ws) :
    Action.PairedResult Eq (sourceNames vs) (sourceNames ws) := by
  have hs := h.forall₂
  clear h
  induction hs with
  | nil => exact .ok rfl
  | @cons v w vs ws h _ ih =>
    cases h with
    | word | list => exact .error _ _
    | same =>
      cases v with
      | query q => exact ih.map fun _ _ h => congrArg (q.name :: ·) h
      | _ => exact .error _ _

/-! ## Calls -/

namespace Call

/-- The second call is the first one with some words in its arguments spelt out: by their names in an
exact search and in sorts, by their wire forms elsewhere. -/
inductive Spells : Call → Call → Prop
  | limit {v w : Value} (h : Value.Spells v w) : Spells (.limit v) (.limit w)
  | offset {v w : Value} (h : Value.Spells v w) : Spells (.offset v) (.offset w)
  | search {v w : Value} (h : Value.Spells v w) : Spells (.search v) (.search w)
  | searchExact {v w : Value} (h : Names v w) : Spells (.searchExact v) (.searchExact w)
  | within {v w : Value} (h : Value.Spells v w) : Spells (.within v) (.within w)
  | sort (direction : Direction) {v w : Value} (h : Names v w) :
      Spells (.sort direction v) (.sort direction w)
  | sortBlend {v w v' w' : Value} (h : Value.Spells v w) (h' : Value.Spells v' w') :
      Spells (.sortBlend v v') (.sortBlend w w')
  | only {vs ws : List Value} (h : SpellsArguments vs ws) : Spells (.only vs) (.only ws)
  | includeRowCount {v w : Value} (h : Value.Spells v w) :
      Spells (.includeRowCount v) (.includeRowCount w)
  | threshold {v w : Value} (h : Value.Spells v w) : Spells (.threshold v) (.threshold w)
  | addFilter {v w : Value} (h : Value.Spells v w) : Spells (.addFilter v) (.addFilter w)
  | fold (c : Combinator) {vs ws : List Value} (h : SpellsArguments vs ws) :
      Spells (.fold c vs) (.fold c ws)
  | predicate (operator : Operator) {key key' v w : Value} (hkey : Value.Spells key key')
      (h : SpellsOperand v w) : Spells (.predicate key operator v) (.predicate key' operator w)
  | predicateAny (operator : Operator) {key key' : Value} {vs ws : List Value}
      (hkey : Value.Spells key key') (h : SpellsArguments vs ws) :
      Spells (.predicateAny key operator vs) (.predicateAny key' operator ws)

/-- Both spellings of a call succeed or fail, and they leave families in two spellings. -/
theorem pairs_run (self : Text) {c d : Call} (h : c.Spells d) :
    Pairs Family.Spells Eq (c.run self) (d.run self) := by
  cases h with
  | limit h => exact Family.pairs_focus self (pairs_setWhole .limit _ h)
  | offset h => exact Family.pairs_focus self (pairs_setWhole .offset _ h)
  | search h => exact Family.pairs_focus self (pairs_setParameter .search h)
  | searchExact h => exact Family.pairs_focus self (pairs_searchExact h)
  | within h => exact Family.pairs_focus self (pairs_within h)
  | sort direction h => exact Family.pairs_focus self (pairs_sort direction h)
  | sortBlend h h' => exact Family.pairs_focus self (pairs_sortBlend h h')
  | only h => exact Family.pairs_focus self (pairs_only h)
  | includeRowCount h =>
    exact Family.pairs_focus self (pairs_includeRowCount h)
  | threshold h => exact Family.pairs_focus self (pairs_setParameter .threshold h)
  | addFilter h => exact Family.pairs_focus self (pairs_addFilter h)
  | fold c h =>
    apply (Pairs.of_lift (paired_sourceNames h.flatten)).bind
    rintro names _ rfl
    apply (Family.pairs_fold self c names).bind
    intro _ _ _
    exact .of_constant (Action.constant_pure ())
  | predicate operator hkey h => exact Family.pairs_focus self (pairs_addPredicate operator hkey h)
  | predicateAny operator hkey h =>
    exact Family.pairs_focus self (pairs_addPredicate operator hkey (.value (.list h.flatten)))

end Call

/-! ## Runs -/

def SpellsStep (a b : Text × Call) : Prop := a.1 = b.1 ∧ a.2.Spells b.2

/-- Runs of calls in two spellings leave families in two spellings. -/
theorem spells_run {family other : Family} {steps steps' : List (Text × Call)}
    (h : family.Spells other) (hsteps : List.Forall₂ SpellsStep steps steps') :
    (run family steps).Spells (run other steps') := by
  induction hsteps generalizing family other with
  | nil => exact h
  | @cons a b steps steps' hab _ ih =>
    obtain ⟨self, c⟩ := a
    obtain ⟨self', d⟩ := b
    obtain ⟨rfl, hcd⟩ := hab
    exact ih (Family.pairs_upToDate self (Call.pairs_run self hcd) _ _ h).2

/-- Words and what they are spelt as are interchangeable: after every step of two runs that differ in
spelling only, each query has the same query string in both, and looks the same as a value. -/
theorem toQueryString_spells {steps steps' : List (Text × Call)}
    (hsteps : List.Forall₂ SpellsStep steps steps') (n : Nat) (name : Text) :
    ((run .fresh (steps.take n)).current name).toQueryString =
        ((run .fresh (steps'.take n)).current name).toQueryString ∧
      (run .fresh (steps.take n)).handle name = (run .fresh (steps'.take n)).handle name := by
  have htake : List.Forall₂ SpellsStep (steps.take n) (steps'.take n) :=
    List.forall₂_take n hsteps
  have hfresh : Family.fresh.Spells Family.fresh := .nil
  have hrun := spells_run hfresh htake
  exact ⟨(hrun.current name).toQueryString, congrFun hrun.handle_eq name⟩

/-- Calls with words as parameters, as elements of lists and under a sort. -/
def wordedCalls : List (Text × Call) :=
  [("q", .threshold (.word (.threshold .confident))),
    ("q", .only [.list [.word (.direction .asc), .ofString "name"]]),
    ("q", .predicate (.word (.geo .meters)) .isIn (.tuple [.word (.threshold .default)])),
    ("q", .sort .asc (.word (.direction .desc)))]

def speltCalls : List (Text × Call) :=
  [("q", .threshold (.ofString "confident")),
    ("q", .only [.list [.ofString "asc", .ofString "name"]]),
    ("q", .predicate (.ofString "$meters") .isIn (.tuple [.ofString "default"])),
    ("q", .sort .asc (.ofString "SortDirection.DESC"))]

theorem toQueryString_speltCalls :
    ((run .fresh (wordedCalls.take 4)).current "q").toQueryString =
        ((run .fresh (speltCalls.take 4)).current "q").toQueryString ∧
      (run .fresh (wordedCalls.take 4)).handle "q" = (run .fresh (speltCalls.take 4)).handle "q" := by
  have hsteps : List.Forall₂ SpellsStep wordedCalls speltCalls :=
    .cons ⟨rfl, .threshold (.word _)⟩ <|
      .cons ⟨rfl, .only (.each (.cons (.list (.cons (.word _) (.refl _))) .nil))⟩ <|
        .cons ⟨rfl, .predicate .isIn (.word _) (.tuple (.cons (.word _) .nil))⟩ <|
          .cons ⟨rfl, .sort .asc (.word _)⟩ .nil
  exact toQueryString_spells hsteps 4 "q"

/-- An exact search for a word is not one for its wire form. -/
theorem searchExact_word :
    ¬ ∀ w : Word, ((run .fresh [("q", .searchExact (.word w))]).current "q").toQueryString =
      ((run .fresh [("q", .searchExact (.text w.wire))]).current "q").toQueryString := by
  intro hsame
  have hconfident := hsame (.threshold .confident)
  cases hconfident

end Query

end RowQuery
