import RowQuery.Geo
import RowQuery.Proofs.Filter.Reading

/-!
# Construction of row filters

A row filter is made from named parts, read from its wire form, or the filter of a geo shape. However
it is made, it is valid: no group in it is empty, and no operand holds a NaN or an infinity.
-/

namespace RowQuery

set_option autoImplicit false

namespace Value

mutual

/-- The row filters that a value is or holds in its elements and members. -/
def filtersIn : Value → List RowFilter
  | filter f => [f]
  | list items | tuple items | set items => filtersInAll items
  | mapping members => filtersInMembers members
  | _ => []

def filtersInAll : List Value → List RowFilter
  | [] => []
  | v :: vs => filtersIn v ++ filtersInAll vs

def filtersInMembers : List (Value × Value) → List RowFilter
  | [] => []
  | (_, v) :: ms => filtersIn v ++ filtersInMembers ms

end

end Value

namespace RowFilter

open Value (filtersIn filtersInAll filtersInMembers)

mutual

/-- Every group has an operand, and every operand of a predicate is finite. -/
def Valid : RowFilter → Prop
  | field _ _ v => v.isFinite = true
  | group _ fs => fs ≠ [] ∧ AllValid fs

def AllValid : List RowFilter → Prop
  | [] => True
  | f :: fs => Valid f ∧ AllValid fs

end

theorem allValid_iff {fs : List RowFilter} : AllValid fs ↔ ∀ f ∈ fs, f.Valid := by
  induction fs with
  | nil => simp [AllValid]
  | cons f fs ih => simp [AllValid, ih]

/-- The row filters that callers can come by. -/
inductive Built : RowFilter → Prop
  | ofField {parts : Parts} {f : RowFilter} (h : makeField parts = .ok f) : Built f
  | ofGroup {parts : Parts} {f : RowFilter} (hparts : ∀ g ∈ filtersInMembers parts, Built g)
      (h : makeGroup parts = .ok f) : Built f
  | ofWire {data : Value} {f : RowFilter} (h : RowFilter.ofWire data = .ok f) : Built f
  | ofCircle {latitude longitude meters : Value} {c : Circle}
      (h : Circle.make latitude longitude meters = .ok c) : Built c.toFilter
  | ofRectangle {a b c d : Value} {r : Rectangle} (h : Rectangle.make a b c d = .ok r) :
      Built r.toFilter
  | ofOperand {c : Combinator} {fs : List RowFilter} {f : RowFilter} (hgroup : Built (.group c fs))
      (hf : f ∈ fs) : Built f

/-! ## Named parts -/

theorem isFinite_of_checkValue {v : Option Value} {w : Value} (h : checkValue v = .ok w) :
    w.isFinite = true := by
  unfold checkValue at h
  split at h
  · cases h
  · split at h
    · next hw =>
      cases h
      exact hw
    · cases h

/-- A predicate that is made from parts holds a finite value. -/
theorem valid_of_fieldOfParts {parts : Parts} {f : RowFilter} (h : fieldOfParts parts = .ok f) :
    f.Valid := by
  unfold fieldOfParts at h
  dsimp only at h
  split at h
  · next hvalue =>
    cases h
    exact isFinite_of_checkValue hvalue
  · cases h

theorem valid_of_groupOfParts {parts : Parts} {operands : Checked (List RowFilter)} {f : RowFilter}
    (hfs : ∀ fs, operands = .ok fs → fs ≠ [] ∧ AllValid fs)
    (h : groupOfParts parts operands = .ok f) : f.Valid := by
  unfold groupOfParts at h
  dsimp only at h
  split at h
  · cases h
    exact hfs _ rfl
  · cases h

theorem mapError_eq_ok {ε ε' α : Type} {g : ε → ε'} {x : Except ε α} {a : α}
    (h : x.mapError g = .ok a) : x = .ok a := by
  cases x with
  | error e => cases h
  | ok b => exact congrArg Except.ok (Except.ok.inj h)

mutual

/-- A checked operand is valid if the row filters within it are. -/
theorem valid_of_checkOperand : ∀ (v : Value) (f : RowFilter), (∀ g ∈ filtersIn v, g.Valid) →
    checkOperand v = .ok f → f.Valid
  | .filter g, f, hv, h => by
    rw [checkOperand] at h
    cases h
    exact hv _ (List.mem_singleton.2 rfl)
  | .mapping members, f, hv, h => by
    -- A mapping of parts is made into a row filter here, with the checks of one made by itself.
    have hmembers := allValid_of_checkOperandsIn members
    rw [filtersIn] at hv
    rw [checkOperand] at h
    split at h
    · split at h
      · exact valid_of_fieldOfParts (mapError_eq_ok h)
      · split at h
        · exact valid_of_groupOfParts (fun fs hfs => hmembers fs hv hfs) (mapError_eq_ok h)
        · cases h
    · cases h
  | .null, _, _, h | .bool _, _, _, h | .int _, _, _, h | .float _, _, _, h | .text _, _, _, h
  | .octets _, _, _, h | .list _, _, _, h | .tuple _, _, _, h | .set _, _, _, h | .word _, _, _, h
  | .circle _, _, _, h | .rectangle _, _, _, h | .query _, _, _, h | .store .., _, _, h => nomatch h

theorem allValid_of_checkOperandsIn : ∀ (parts : Parts) (fs : List RowFilter),
    (∀ g ∈ filtersInMembers parts, g.Valid) → checkOperandsIn parts = .ok fs →
      fs ≠ [] ∧ AllValid fs
  | [], _, _, h => nomatch h
  | (name, v) :: parts, fs, hparts, h => by
    rw [filtersInMembers] at hparts
    rw [checkOperandsIn] at h
    split at h
    · exact allValid_of_checkOperands v fs (fun g hg => hparts g (List.mem_append_left _ hg)) h
    · exact allValid_of_checkOperandsIn parts fs
        (fun g hg => hparts g (List.mem_append_right _ hg)) h

theorem allValid_of_checkOperands : ∀ (v : Value) (fs : List RowFilter),
    (∀ g ∈ filtersIn v, g.Valid) → checkOperands v = .ok fs → fs ≠ [] ∧ AllValid fs
  | .list items, fs, hv, h | .tuple items, fs, hv, h | .set items, fs, hv, h => by
    rw [filtersIn] at hv
    rw [checkOperands] at h
    cases items with
    | nil => cases h
    | cons v vs =>
      obtain ⟨hlength, hvalid⟩ := allValid_of_checkEach (v :: vs) fs hv h
      exact ⟨fun hnil => by simp [hnil] at hlength, hvalid⟩
  | .null, _, _, h | .bool _, _, _, h | .int _, _, _, h | .float _, _, _, h | .text _, _, _, h
  | .octets _, _, _, h | .mapping _, _, _, h | .word _, _, _, h | .filter _, _, _, h
  | .circle _, _, _, h | .rectangle _, _, _, h | .query _, _, _, h | .store .., _, _, h => nomatch h

theorem allValid_of_checkEach : ∀ (vs : List Value) (fs : List RowFilter),
    (∀ g ∈ filtersInAll vs, g.Valid) → checkEach vs = .ok fs →
      fs.length = vs.length ∧ AllValid fs
  | [], _, _, h => by
    cases h
    exact ⟨rfl, trivial⟩
  | v :: vs, fs, hvs, h => by
    rw [filtersInAll] at hvs
    have hfirst := valid_of_checkOperand v
    have hrest := allValid_of_checkEach vs
    rw [checkEach] at h
    split at h
    · cases h
    · next f hf =>
      obtain ⟨gs, hgs, rfl⟩ := map_eq_ok h
      obtain ⟨hlength, hvalid⟩ := hrest gs (fun g hg => hvs g (List.mem_append_right _ hg)) hgs
      exact ⟨congrArg (· + 1) hlength,
        hfirst f (fun g hg => hvs g (List.mem_append_left _ hg)) hf, hvalid⟩

end

/-! ## Wire forms -/

theorem valid_of_fieldOfWire {key operand : Value} {operator : Option Value} {f : RowFilter}
    (h : fieldOfWire key operator operand = .ok f) : f.Valid :=
  valid_of_fieldOfParts (mapError_eq_ok h)

theorem valid_of_predicateOfWire {key v : Value} {f : RowFilter}
    (h : predicateOfWire key v = .ok f) : f.Valid := by
  unfold predicateOfWire at h
  split at h
  · next operator operand =>
    cases ho : isOperator operator with
    | error e => rw [ho] at h; cases h
    | ok marked =>
      rw [ho] at h
      cases marked with
      | true => exact valid_of_fieldOfWire h
      | false => exact valid_of_fieldOfWire h
  · exact valid_of_fieldOfWire h

mutual

/-- Whatever is read from a wire form is valid. -/
theorem valid_of_ofWire : ∀ (data : Value) (f : RowFilter), ofWire data = .ok f → f.Valid
  | .mapping members, f, h => by
    rw [ofWire] at h
    exact valid_of_ofMembers _ members f h
  | .null, f, h | .bool _, f, h | .int _, f, h | .float _, f, h | .text _, f, h | .octets _, f, h
  | .list _, f, h | .tuple _, f, h | .set _, f, h | .word _, f, h | .filter _, f, h
  | .circle _, f, h | .rectangle _, f, h | .query _, f, h | .store .., f, h =>
    absurd h (notSingleKey_ne_ok _ f)

theorem valid_of_ofMembers (data : Value) : ∀ (members : List (Value × Value)) (f : RowFilter),
    ofMembers data members = .ok f → f.Valid
  | [], f, h | _ :: _ :: _, f, h => absurd h (notSingleKey_ne_ok _ f)
  | [(key, value)], f, h => by
    rw [ofMembers] at h
    split at h
    · cases hi : data.inspected <;> rw [hi] at h <;> cases h
    · split at h
      · obtain ⟨fs, hfs, rfl⟩ := map_eq_ok h
        exact valid_of_ofOperands data key value fs hfs
      · exact valid_of_predicateOfWire h

theorem valid_of_ofOperands (data key : Value) : ∀ (v : Value) (fs : List RowFilter),
    ofOperands data key v = .ok fs → fs ≠ [] ∧ AllValid fs
  | .list (item :: items), fs, h => by
    have hlist : ofWires (item :: items) = .ok fs := by rw [ofWires, ← ofOperands.eq_1, h]
    obtain ⟨g, gs, hg, hgs, rfl⟩ := ofWires_cons_ok hlist
    exact ⟨List.cons_ne_nil _ _, valid_of_ofWire item g hg, allValid_of_ofWires items gs hgs⟩
  | .list [], fs, h | .null, fs, h | .bool _, fs, h | .int _, fs, h | .float _, fs, h
  | .text _, fs, h | .octets _, fs, h | .tuple _, fs, h | .set _, fs, h | .mapping _, fs, h
  | .word _, fs, h | .filter _, fs, h | .circle _, fs, h | .rectangle _, fs, h | .query _, fs, h
  | .store .., fs, h => absurd h (ofOperands_ne_ok fs nofun)

theorem allValid_of_ofWires : ∀ (vs : List Value) (fs : List RowFilter),
    ofWires vs = .ok fs → AllValid fs
  | [], fs, h => by
    cases h
    trivial
  | v :: vs, fs, h => by
    obtain ⟨g, gs, hg, hgs, rfl⟩ := ofWires_cons_ok h
    exact ⟨valid_of_ofWire v g hg, allValid_of_ofWires vs gs hgs⟩

end

/-! ## Geo shapes -/

theorem refuse_ne_ok {α : Type} (v : Value) (problem : Shown → ArgumentProblem) (a : α) :
    v.refuse problem ≠ .ok a := by
  unfold Value.refuse
  cases v.inspected <;> nofun

theorem isFinite_of_checkFinite {n : Number} (h : n.checkFinite = .ok true) :
    n.toValue.isFinite = true := by
  cases n with
  | int => rfl
  | float x => exact Except.ok.inj h

/-- A number that passes its check together with another condition is finite. -/
theorem isFinite_of_checked {n m : Number} {within : Bool} {refused : Except Failure Number}
    (hrefused : refused ≠ .ok m)
    (h : (do if (← n.checkFinite) && within then pure n else refused) = .ok m) :
    m.toValue.isFinite = true := by
  cases hn : n.checkFinite with
  | error e => rw [hn] at h; cases h
  | ok finite =>
    rw [hn] at h
    have hif : (if finite && within then Except.ok n else refused) = .ok m := h
    split at hif
    · next hboth =>
      obtain ⟨rfl, -⟩ := Bool.and_eq_true_iff.1 hboth
      cases hif
      exact isFinite_of_checkFinite hn
    · exact absurd hif hrefused

theorem isFinite_of_checkCoordinate {name : Text} {bound : Nat} {v : Value} {n : Number}
    (h : checkCoordinate name bound v = .ok n) : n.toValue.isFinite = true := by
  unfold checkCoordinate at h
  split at h
  · exact absurd h (refuse_ne_ok _ _ _)
  · exact isFinite_of_checked (refuse_ne_ok _ _ _) h

theorem isFinite_of_checkMeters {v : Value} {n : Number} (h : checkMeters v = .ok n) :
    n.toValue.isFinite = true := by
  unfold checkMeters at h
  split at h
  · exact absurd h (refuse_ne_ok _ _ _)
  · exact isFinite_of_checked (refuse_ne_ok _ _ _) h

/-- The row filter of a circle is valid, since a circle is made of finite numbers. -/
theorem valid_of_makeCircle {latitude longitude meters : Value} {c : Circle}
    (h : Circle.make latitude longitude meters = .ok c) : c.toFilter.Valid := by
  unfold Circle.make at h
  obtain ⟨lat, hlat, h⟩ := bind_eq_ok h
  obtain ⟨lon, hlon, h⟩ := bind_eq_ok h
  obtain ⟨m, hm, h⟩ := bind_eq_ok h
  cases h
  have hlat := isFinite_of_checkCoordinate hlat
  have hlon := isFinite_of_checkCoordinate hlon
  have hm := isFinite_of_checkMeters hm
  simp [Circle.toFilter, Valid, Value.isFinite, Value.allFinite, Value.allMembersFinite, hlat, hlon,
    hm]

theorem valid_of_makeRectangle {a b c d : Value} {r : Rectangle}
    (h : Rectangle.make a b c d = .ok r) : r.toFilter.Valid := by
  unfold Rectangle.make at h
  obtain ⟨top, htop, h⟩ := bind_eq_ok h
  obtain ⟨left, hleft, h⟩ := bind_eq_ok h
  obtain ⟨bottom, hbottom, h⟩ := bind_eq_ok h
  obtain ⟨right, hright, h⟩ := bind_eq_ok h
  cases h
  have htop := isFinite_of_checkCoordinate htop
  have hleft := isFinite_of_checkCoordinate hleft
  have hbottom := isFinite_of_checkCoordinate hbottom
  have hright := isFinite_of_checkCoordinate hright
  simp [Rectangle.toFilter, Valid, Value.isFinite, Value.allFinite, htop, hleft, hbottom, hright]

/-- However a row filter is made, it is valid. -/
theorem Built.valid {f : RowFilter} (h : f.Built) : f.Valid := by
  induction h with
  | ofField h => exact valid_of_fieldOfParts (mapError_eq_ok h)
  | ofGroup _ h ih =>
    exact valid_of_groupOfParts (fun fs hfs => allValid_of_checkOperandsIn _ fs ih hfs)
      (mapError_eq_ok h)
  | ofWire h => exact valid_of_ofWire _ _ h
  | ofCircle h => exact valid_of_makeCircle h
  | ofRectangle h => exact valid_of_makeRectangle h
  | ofOperand _ hf ih => exact allValid_iff.1 ih.2 _ hf

end RowFilter

end RowQuery
