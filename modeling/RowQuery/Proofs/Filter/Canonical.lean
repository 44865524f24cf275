import RowQuery.Proofs.Filter.Reading
import RowQuery.Proofs.Number.Shortest

/-!
# Canonical row filters

A wire form has no tags, so some row filters share theirs with another one. Canonical row filters
are those that the reader makes. Main statement: reading the wire form of a row filter gives an
equal row filter exactly when it is canonical; otherwise it gives a different one or none.
-/

namespace RowQuery

open Value (equal equalAll equalFilter equalFilters submapping)

set_option autoImplicit false

namespace RowFilter

open Json (Settled SettledItems Every EveryItem Finite Short toValues)

mutual

/-- The operands hold JSON data with a property, and no group in the row filter is empty. -/
def Holds (p : Json → Prop) : RowFilter → Prop
  | field _ _ v => ∃ j : Json, j.Settled ∧ p j ∧ v = j.toValue
  | group _ fs => fs ≠ [] ∧ AllHold p fs

def AllHold (p : Json → Prop) : List RowFilter → Prop
  | [] => True
  | f :: fs => Holds p f ∧ AllHold p fs

end

/-- A mapping of one member whose key looks like an operator. -/
def IsMarkedMapping : Value → Prop
  | .mapping [(k, _)] => ∃ o, k.text? = some o ∧ IsMarked o
  | _ => False

mutual

/-- A predicate is canonical when its key is no combinator and either its operator is marked or it
has none and its operand does not look like one; a group when its operands are. -/
def IsCanonical : RowFilter → Prop
  | field key none v => (∀ c : Combinator, key ≠ c.wire) ∧ ¬ IsMarkedMapping v
  | field key (some o) _ => (∀ c : Combinator, key ≠ c.wire) ∧ IsMarked o
  | group _ fs => AllCanonical fs

def AllCanonical : List RowFilter → Prop
  | [] => True
  | f :: fs => IsCanonical f ∧ AllCanonical fs

end

/-! ## What is read is canonical -/

theorem isCanonical_ofMember {k : Text} (j : Json) (hk : ∀ c : Combinator, k ≠ c.wire) :
    (ofMember k j).IsCanonical := by
  unfold ofMember
  split
  · next o i =>
    split
    · next ho => exact ⟨hk, ho⟩
    · next ho =>
      refine ⟨hk, ?_⟩
      rintro ⟨_, he, hmarked⟩
      cases he
      exact ho hmarked
  · next hne =>
    refine ⟨hk, ?_⟩
    match j with
    | .object [(o, i)] => exact absurd rfl (hne o i)
    | .object [] | .object (_ :: _ :: _) => exact id
    | .null | .bool _ | .int _ | .float _ | .text _ | .array _ => exact id

mutual

/-- Whatever is read is canonical. -/
theorem isCanonical_of_ofWire : ∀ (j : Json) (f : RowFilter), j.Settled →
    ofWire j.toValue = .ok f → f.IsCanonical
  | j, f, hs, h => by
    rcases ofWire_cases hs h with ⟨k, i, rfl, -, hk, rfl⟩ | ⟨c, i, is, fs, rfl, hfs, rfl⟩
    · exact isCanonical_ofMember i hk
    · exact allCanonical_of_ofWires (i :: is) fs hs.2.1 hfs

theorem allCanonical_of_ofWires : ∀ (js : List Json) (fs : List RowFilter), SettledItems js →
    ofWires (toValues js) = .ok fs → AllCanonical fs
  | [], fs, _, h => by
    cases h
    trivial
  | j :: js, fs, hs, h => by
    obtain ⟨g, gs, hg, hgs, rfl⟩ := ofWires_cons_ok h
    exact ⟨isCanonical_of_ofWire j g hs.1 hg, allCanonical_of_ofWires js gs hs.2 hgs⟩

end

/-! ## A canonical row filter is read back -/

theorem ofMember_marked {k o : Text} (j : Json) (ho : IsMarked o) :
    ofMember k (.object [(o, j)]) = field k (some o) j.toValue := if_pos ho

theorem ofMember_unmarked {k : Text} {j : Json} (hj : ¬ IsMarkedMapping j.toValue) :
    ofMember k j = field k none j.toValue := by
  unfold ofMember
  split
  · next o i => exact if_neg fun ho => hj ⟨o, rfl, ho⟩
  · rfl

mutual

/-- The wire form of a row filter that holds JSON data is JSON data. -/
theorem exists_json {atom : Json → Prop} (ht : ∀ t, atom (.text t)) : ∀ f : RowFilter,
    f.Holds (Every atom) → ∃ j : Json, j.Settled ∧ j.Every atom ∧ f.toWire = j.toValue
  | field k none v, h => by
    obtain ⟨j, hs, hp, rfl⟩ := h
    exact ⟨.object [(k, j)], ⟨fun _ hm => (nomatch hm), hs, trivial⟩, ⟨ht k, hp, trivial⟩, rfl⟩
  | field k (some o) v, h => by
    obtain ⟨j, hs, hp, rfl⟩ := h
    exact ⟨.object [(k, .object [(o, j)])],
      ⟨fun _ hm => (nomatch hm), ⟨fun _ hm => (nomatch hm), hs, trivial⟩, trivial⟩,
      ⟨ht k, ⟨ht o, hp, trivial⟩, trivial⟩, rfl⟩
  | group c fs, h => by
    obtain ⟨js, hs, hp, he⟩ := exists_jsons ht fs h.2
    refine ⟨.object [(c.wire, .array js)], ⟨fun _ hm => (nomatch hm), hs, trivial⟩,
      ⟨ht c.wire, hp, trivial⟩, ?_⟩
    rw [toWire, he]
    rfl

theorem exists_jsons {atom : Json → Prop} (ht : ∀ t, atom (.text t)) : ∀ fs : List RowFilter,
    AllHold (Every atom) fs →
      ∃ js : List Json, SettledItems js ∧ EveryItem atom js ∧ toWires fs = toValues js
  | [], _ => ⟨[], trivial, trivial, rfl⟩
  | f :: fs, h => by
    obtain ⟨j, hs, hp, he⟩ := exists_json ht f h.1
    obtain ⟨js, hss, hps, hes⟩ := exists_jsons ht fs h.2
    exact ⟨j :: js, ⟨hs, hss⟩, ⟨hp, hps⟩, by rw [toWires, he, hes]; rfl⟩

end

mutual

/-- A canonical row filter is read back from its wire form, as it is. -/
theorem ofWire_toWire_of_canonical : ∀ f : RowFilter, f.Holds (Every Finite) → f.IsCanonical →
    ofWire f.toWire = .ok f
  | field k none v, h, hc => by
    obtain ⟨j, hs, hp, rfl⟩ := h
    have hr := ofWire_member (Json.isFinite_toValue j hp) hc.1 hs
    rwa [ofMember_unmarked hc.2] at hr
  | field k (some o) v, h, hc => by
    obtain ⟨j, hs, hp, rfl⟩ := h
    have hi : (Json.object [(o, j)]).Settled := ⟨fun _ hm => (nomatch hm), hs, trivial⟩
    have hf : (Json.object [(o, j)]).Every Finite := ⟨trivial, hp, trivial⟩
    have hr := ofWire_member (Json.isFinite_toValue _ hf) hc.1 hi
    rwa [ofMember_marked j hc.2] at hr
  | group c fs, h, hc => by
    obtain ⟨js, -, hp, he⟩ := exists_jsons (fun _ => trivial) fs h.2
    have hr := ofWire_operands (c := c) (Json.isFinite_toValue (.array js) hp)
    have hrest := ofWires_toWires_of_canonical fs h.2 hc
    rw [he] at hrest
    match js with
    | [] => exact absurd (Except.ok.inj hrest).symm h.1
    | j :: js =>
      rw [ofOperands_array, hrest] at hr
      rw [toWire, he]
      exact hr

theorem ofWires_toWires_of_canonical : ∀ fs : List RowFilter, AllHold (Every Finite) fs →
    AllCanonical fs → ofWires (toWires fs) = .ok fs
  | [], _, _ => rfl
  | f :: fs, h, hc => by
    rw [toWires, ofWires, ofWire_toWire_of_canonical f h.1 hc.1,
      ofWires_toWires_of_canonical fs h.2 hc.2]
    rfl

end

/-! ## Equal row filters -/

mutual

/-- A row filter without NaN equals itself. -/
theorem equalFilter_self : ∀ f : RowFilter, f.Holds (Every Finite) → equalFilter f f = true
  | field k o v, h => by
    obtain ⟨j, hs, hp, rfl⟩ := h
    rw [equalFilter, Json.equal_self j hs (Json.isFinite_toValue j hp)]
    simp
  | group c fs, h => by
    rw [equalFilter, equalFilters_self fs h.2]
    simp

theorem equalFilters_self : ∀ fs : List RowFilter, AllHold (Every Finite) fs →
    equalFilters fs fs = true
  | [], _ => by rw [equalFilters]
  | f :: fs, h => by
    rw [equalFilters, equalFilter_self f h.1, equalFilters_self fs h.2, Bool.and_self]

end

theorem isMarkedMapping_iff {v : Value} :
    IsMarkedMapping v ↔ ∃ k x o, v = .mapping [(k, x)] ∧ k.text? = some o ∧ IsMarked o := by
  constructor
  · intro h
    unfold IsMarkedMapping at h
    split at h
    · exact ⟨_, _, h.choose, rfl, h.choose_spec⟩
    · exact h.elim
  · rintro ⟨k, x, o, rfl, hk⟩
    exact ⟨o, hk⟩

/-- A mapping that equals a mapping of one member, whose key is a text or a word, has such a key. -/
theorem submapping_single {ms : List (Value × Value)} {k x : Value} {o : Text}
    (hk : k.text? = some o) (hl : ms.length = 1) (h : submapping ms [(k, x)] = true) :
    ∃ l y, ms = [(l, y)] ∧ l.text? = some o := by
  match ms, hl with
  | [(l, y)], _ =>
    rw [submapping] at h
    cases hkl : Value.sameKey k l with
    | true =>
      have hlo : Value.sameKey l (.text o) = true :=
        Value.sameKey_trans (Value.sameKey_symm hkl) (Value.sameKey_text_iff.2 hk)
      exact ⟨l, y, rfl, Value.sameKey_text_iff.1 hlo⟩
    | false =>
      have hnone : Value.lookup? [(k, x)] l = none := by simp [Value.lookup?, hkl]
      rw [hnone] at h
      cases h

/-- A value that equals a marked mapping is one. -/
theorem isMarkedMapping_of_equal {v w : Value} (h : equal v w = true) (hw : IsMarkedMapping w) :
    IsMarkedMapping v := by
  obtain ⟨k, x, o, rfl, hk, ho⟩ := isMarkedMapping_iff.1 hw
  cases v with
  | mapping ms =>
    rw [equal, Bool.and_eq_true, beq_iff_eq] at h
    obtain ⟨l, y, rfl, hl⟩ := submapping_single hk h.1 h.2
    exact ⟨o, hl, ho⟩
  | _ => simp [equal, Value.sameAtom, Value.quantity?, Value.text?, Value.sameKey, Value.key] at h

mutual

/-- A row filter that equals a canonical one is canonical. -/
theorem isCanonical_of_equal : ∀ g f : RowFilter, equalFilter g f = true → g.IsCanonical →
    f.IsCanonical
  | field k o v, field l p w, h, hg => by
    simp only [equalFilter, Bool.and_eq_true, beq_iff_eq] at h
    obtain ⟨⟨rfl, rfl⟩, hv⟩ := h
    cases o with
    | none =>
      refine ⟨hg.1, fun hw => hg.2 ?_⟩
      rcases Bool.or_eq_true_iff.1 hv with hsame | heq
      · -- One NaN is no mapping.
        obtain ⟨k, x, o, rfl, -⟩ := isMarkedMapping_iff.1 hw
        cases v <;> cases hsame
      · exact isMarkedMapping_of_equal heq hw
    | some o => exact hg
  | group c fs, group d gs, h, hg => by
    simp only [equalFilter, Bool.and_eq_true] at h
    exact allCanonical_of_equal fs gs h.2 hg
  | field .., group .., h, _ => by simp [equalFilter] at h
  | group .., field .., h, _ => by simp [equalFilter] at h

theorem allCanonical_of_equal : ∀ gs fs : List RowFilter, equalFilters gs fs = true →
    AllCanonical gs → AllCanonical fs
  | [], [], _, _ => trivial
  | g :: gs, f :: fs, h, hg => by
    rw [equalFilters, Bool.and_eq_true] at h
    exact ⟨isCanonical_of_equal g f h.1 hg.1, allCanonical_of_equal gs fs h.2 hg.2⟩
  | [], _ :: _, h, _ => by simp [equalFilters] at h
  | _ :: _, [], h, _ => by simp [equalFilters] at h

end

/-! ## Outcomes of reading -/

/-- Something is read, or the data is no row filter, or the message that says so would show an
integer of too many digits. -/
def Reads {α : Type} (short : Prop) (x : Except Failure α) : Prop :=
  (∃ a, x = .ok a) ∨ (∃ p, x = .error (.filter p)) ∨
    x = .error (.defect (.unrenderable .tooManyDigits)) ∧ ¬ short

theorem Reads.imp {α : Type} {p q : Prop} {x : Except Failure α} (hx : Reads p x) (hqp : q → p) :
    Reads q x :=
  hx.imp_right (Or.imp_right fun h => ⟨h.1, fun hq => h.2 (hqp hq)⟩)

theorem Reads.bind {α β : Type} {p : Prop} {x : Except Failure α} {f : α → Except Failure β}
    (hx : Reads p x) (hf : ∀ a, Reads p (f a)) : Reads p (x >>= f) := by
  rcases hx with ⟨a, rfl⟩ | ⟨e, rfl⟩ | ⟨rfl, hp⟩
  · exact hf a
  · exact .inr (.inl ⟨e, rfl⟩)
  · exact .inr (.inr ⟨rfl, hp⟩)

theorem Reads.map {α β : Type} {p : Prop} {x : Except Failure α} (hx : Reads p x) (f : α → β) :
    Reads p (x.map f) := by
  rcases hx with ⟨a, rfl⟩ | ⟨e, rfl⟩ | ⟨rfl, hp⟩
  · exact .inl ⟨f a, rfl⟩
  · exact .inr (.inl ⟨e, rfl⟩)
  · exact .inr (.inr ⟨rfl, hp⟩)

/-- A refusal that shows data. -/
theorem reads_refusal {α : Type} (j : Json) (problem : Shown → FilterProblem) :
    Reads (α := α) (j.Every Short) (do .error (.filter (problem (← j.toValue.inspected)))) := by
  unfold Value.inspected
  rcases Json.inspect_shows j with ⟨t, ht⟩ | ⟨ht, hs⟩ <;> rw [ht]
  · exact .inr (.inl ⟨_, rfl⟩)
  · exact .inr (.inr ⟨rfl, hs⟩)

theorem reads_badOperands {data : Value} {k : Text} (j : Json)
    (hj : ∀ item items, j.toValue ≠ .list (item :: items)) :
    Reads (j.Every Short) (ofOperands data (.text k) j.toValue) := by
  rw [ofOperands_eq_error hj]
  exact reads_refusal j (.badOperands ⟨.text k, k⟩ · data)

mutual

/-- Reading JSON data has one of the three outcomes. -/
theorem reads_ofWire : ∀ j : Json, j.Settled → Reads (j.Every Short) (ofWire j.toValue)
  | .object [(k, i)], hs => by
    have hshort : (Json.object [(k, i)]).Every Short → i.Every Short := fun h => h.2.1
    cases hf : i.toValue.isFinite with
    | false =>
      rw [not_finite_member hf]
      exact reads_refusal _ .nonFinite
    | true =>
      by_cases hk : ∀ c : Combinator, k ≠ c.wire
      · rw [ofWire_member hf hk hs.2.1]
        exact .inl ⟨_, rfl⟩
      · obtain ⟨c, hc⟩ := not_forall.1 hk
        obtain rfl := not_not.1 hc
        rw [ofWire_operands hf]
        exact ((reads_ofOperands _ c.wire i hs.2.1).imp hshort).map _
  | .object [], _ => reads_refusal (.object []) .notSingleKey
  | .object (m :: n :: ms), _ => reads_refusal (.object (m :: n :: ms)) .notSingleKey
  | .null, _ => reads_refusal .null .notSingleKey
  | .bool b, _ => reads_refusal (.bool b) .notSingleKey
  | .int n, _ => reads_refusal (.int n) .notSingleKey
  | .float x, _ => reads_refusal (.float x) .notSingleKey
  | .text t, _ => reads_refusal (.text t) .notSingleKey
  | .array js, _ => reads_refusal (.array js) .notSingleKey

theorem reads_ofOperands (data : Value) (k : Text) : ∀ j : Json, j.Settled →
    Reads (j.Every Short) (ofOperands data (.text k) j.toValue)
  | .array (i :: is), hs => by
    rw [ofOperands_array]
    exact reads_ofWires (i :: is) hs
  | .array [], _ => reads_badOperands (.array []) fun _ _ he => nomatch he
  | .null, _ => reads_badOperands .null fun _ _ he => nomatch he
  | .bool b, _ => reads_badOperands (.bool b) fun _ _ he => nomatch he
  | .int n, _ => reads_badOperands (.int n) fun _ _ he => nomatch he
  | .float x, _ => reads_badOperands (.float x) fun _ _ he => nomatch he
  | .text t, _ => reads_badOperands (.text t) fun _ _ he => nomatch he
  | .object ms, _ => reads_badOperands (.object ms) fun _ _ he => nomatch he

theorem reads_ofWires : ∀ js : List Json, SettledItems js →
    Reads (EveryItem Short js) (ofWires (toValues js))
  | [], _ => .inl ⟨_, rfl⟩
  | j :: js, hs => by
    rw [toValues, ofWires]
    have hj := (reads_ofWire j hs.1).imp fun h : EveryItem Short (j :: js) => h.1
    have hjs := (reads_ofWires js hs.2).imp fun h : EveryItem Short (j :: js) => h.2
    apply hj.bind
    intro f
    apply hjs.bind
    intro fs
    exact .inl ⟨_, rfl⟩

end

/-- Reading the wire form of a row filter gives an equal row filter exactly when it is canonical.
The wire form of any other one gives a different row filter, or it is refused; a refusal whose
message would show an integer of too many digits fails with the message. -/
theorem ofWire_toWire_iff_canonical {f : RowFilter} (hf : f.Holds (Every Finite)) :
    ((∃ g, ofWire f.toWire = .ok g ∧ equalFilter g f = true) ↔ f.IsCanonical) ∧
    (¬ f.IsCanonical →
      (∃ g, ofWire f.toWire = .ok g ∧ equalFilter g f = false) ∨
      (∃ p, ofWire f.toWire = .error (.filter p)) ∨
      ofWire f.toWire = .error (.defect (.unrenderable .tooManyDigits)) ∧
        ¬ f.Holds (Every Short)) := by
  obtain ⟨j, hs, -, he⟩ := exists_json (fun _ => trivial) f hf
  have hread : (∃ g, ofWire f.toWire = .ok g ∧ equalFilter g f = true) ↔ f.IsCanonical := by
    constructor
    · rintro ⟨g, hg, heq⟩
      exact isCanonical_of_equal g f heq (isCanonical_of_ofWire j g hs (he ▸ hg))
    · intro hc
      exact ⟨f, ofWire_toWire_of_canonical f hf hc, equalFilter_self f hf⟩
  refine ⟨hread, fun hc => ?_⟩
  have hout : Reads (f.Holds (Every Short)) (ofWire f.toWire) := by
    -- The same wire form is that of short data exactly where the operands are short.
    by_cases hshort : f.Holds (Every Short)
    · obtain ⟨i, hi, hp, he'⟩ := exists_json (fun _ => trivial) f hshort
      exact he' ▸ (reads_ofWire i hi).imp fun _ => hp
    · rw [he]
      exact (reads_ofWire j hs).imp fun h => absurd h hshort
  rcases hout with ⟨g, hg⟩ | hrefused
  · refine .inl ⟨g, hg, ?_⟩
    cases heq : equalFilter g f with
    | false => rfl
    | true => exact absurd (hread.1 ⟨g, hg, heq⟩) hc
  · exact .inr hrefused

/-- A group of a predicate whose operand looks like an operator. -/
def ambiguousFilter : RowFilter :=
  .group .and [.field "a" none (.mapping [(.text "$x", .int 1)])]

theorem ofWire_toWire_ambiguousFilter : ambiguousFilter.Holds (Every Finite) ∧
    ¬ ambiguousFilter.IsCanonical ∧
    ∃ g, ofWire ambiguousFilter.toWire = .ok g ∧ equalFilter g ambiguousFilter = false := by
  have hholds : ambiguousFilter.Holds (Every Finite) := by
    refine ⟨nofun, ⟨.object [("$x", .int 1)], ?_, ?_, rfl⟩, trivial⟩
    · exact ⟨nofun, trivial, trivial⟩
    · exact ⟨trivial, trivial, trivial⟩
  have hcanonical : ¬ ambiguousFilter.IsCanonical := fun h => h.1.2 ⟨"$x", rfl, rfl⟩
  refine ⟨hholds, hcanonical, ?_⟩
  rcases (ofWire_toWire_iff_canonical hholds).2 hcanonical with h | ⟨p, hp⟩ | ⟨hp, -⟩
  · exact h
  · cases hp
  · cases hp

/-- Under the key of a group an integer is no list of operands, and the message says so with its digits. -/
theorem ofWire_toWire_long (c : Combinator) {n : Nat}
    (hn : Literal.maxIntDigits < Decimal.length n) :
    ofWire (field c.wire none (.int n)).toWire = .error (.defect (.unrenderable .tooManyDigits)) := by
  have htext : intText n = .error .tooManyDigits := if_pos hn
  have hinspect : (Value.int n).inspected = .error (.defect (.unrenderable .tooManyDigits)) := by
    rw [Value.inspected, Value.inspect, htext]
  have hlist : ∀ item items, Value.int n ≠ .list (item :: items) := by
    intro item items h
    cases h
  have hoperands : ∀ data, ofOperands data (.text c.wire) (.int n) =
      .error (.defect (.unrenderable .tooManyDigits)) := by
    intro data
    rw [ofOperands_eq_error hlist, hinspect]
    rfl
  change ofWire (Json.object [(c.wire, .int n)]).toValue = _
  rw [ofWire_operands rfl]
  change (ofOperands _ _ (.int n)).map _ = _
  rw [hoperands]
  rfl

/-- A predicate under the key of a group, with an integer of one digit too many. -/
def longFilter : RowFilter := .field Combinator.and.wire none (.int (10 ^ Literal.maxIntDigits : Nat))

/-- It is not canonical, and its wire form is neither read nor refused as a row filter. -/
theorem ofWire_toWire_longFilter : longFilter.Holds (Every Finite) ∧ ¬ longFilter.IsCanonical ∧
    ofWire longFilter.toWire = .error (.defect (.unrenderable .tooManyDigits)) := by
  have hlong : Literal.maxIntDigits < Decimal.length (10 ^ Literal.maxIntDigits) := by
    rw [← Nat.not_le, Decimal.length_le_iff]
    exact Nat.lt_irrefl _
  refine ⟨⟨.int (10 ^ Literal.maxIntDigits : Nat), trivial, ⟨trivial, rfl⟩⟩, fun h => h.1 .and rfl, ?_⟩
  exact ofWire_toWire_long .and hlong

end RowFilter

end RowQuery
