import RowQuery.Geo
import RowQuery.Proofs.Number.Range
import RowQuery.Proofs.Value.Inspection

/-!
# Arguments of geo shapes

Every argument of a shape is checked on its own, in order. Main statement: which values a circle and a
rectangle are made of, and with which error the first one is refused that is not such a value. The check
converts a whole number to double precision, so one beyond that range is refused with another error, as a
radius too.
-/

namespace RowQuery

set_option autoImplicit false

namespace Value

/-- The exact value of a whole or a finite number. Truth values are no numbers. -/
def rational? : Value → Option ℚ
  | .int n => some n
  | .float x => if x.isFinite then some x.exact else none
  | _ => none

def IsCoordinate (bound : Nat) (v : Value) : Prop := ∃ q, v.rational? = some q ∧ |q| ≤ bound

def IsLength (v : Value) : Prop := ∃ q, v.rational? = some q ∧ 0 < q

/-- A whole number that double precision rounds to infinity. -/
def Overflows (v : Value) : Prop := ∃ n : Int, v = .int n ∧ 2 ^ 1024 ≤ n.natAbs + 2 ^ 970

/-- An integer overflows exactly where its double precision number is infinite. -/
theorem overflows_int (n : Int) : (Value.int n).Overflows ↔ (Binary64.ofInt n).isFinite = false := by
  rw [← Bool.not_eq_true, Binary64.isFinite_ofInt_iff, Nat.not_lt]
  constructor
  · rintro ⟨m, hm, h⟩
    cases hm
    exact h
  · exact fun h => ⟨n, rfl, h⟩

theorem IsCoordinate.not_overflows {bound : Nat} (hbound : bound ≤ 180) {v : Value}
    (h : v.IsCoordinate bound) : ¬ v.Overflows := by
  rintro ⟨n, rfl, hn⟩
  obtain ⟨q, hq, hle⟩ := h
  obtain rfl := Option.some.inj hq
  have habs : n.natAbs ≤ bound := by
    rw [← Int.cast_abs, Int.abs_eq_natAbs, Int.cast_natCast] at hle
    exact_mod_cast hle
  have hgap : 180 + 2 ^ 970 < 2 ^ 1024 := by decide +kernel
  omega

end Value

namespace Geo

/-- An argument of a shape: what it is called, which numbers it may be, and what it is. -/
structure Argument where
  name : Text
  allowed : ℚ → Prop
  value : Value

namespace Argument

def coordinate (name : Text) (bound : Nat) (v : Value) : Argument := ⟨name, (|·| ≤ bound), v⟩

def radius (v : Value) : Argument := ⟨"meters", (0 < ·), v⟩

/-- The argument is a number that it may be, within the range of double precision. -/
def Accepted (a : Argument) : Prop :=
  (∃ q, a.value.rational? = some q ∧ a.allowed q) ∧ ¬ a.value.Overflows

/-- A coordinate is accepted exactly within its bound. -/
theorem accepted_coordinate {name : Text} {bound : Nat} (hbound : bound ≤ 180) {v : Value} :
    (coordinate name bound v).Accepted ↔ v.IsCoordinate bound :=
  and_iff_left_of_imp (Value.IsCoordinate.not_overflows hbound)

/-- The error of an argument that is not accepted. It names the argument and shows its value; another error
stands in its place where a whole number overflows, and where an integer in the value has too many digits or
a query in it has no text. -/
inductive Refuses (a : Argument) : Failure → Prop
  | overflow (h : a.value.Overflows) : Refuses a (.defect .tooLarge)
  | named {t : Text} {problem : ArgumentProblem} (h : ¬ a.value.Overflows)
    (hshown : a.value.inspect = .ok t) (hdetails : problem.details = [(.text a.name, a.value)]) :
    Refuses a (.argument problem)
  | unshown {f : RenderFailure} (h : ¬ a.value.Overflows) (hshown : a.value.inspect = .error f)
    (hf : HasNoText a.value.shownQueries f) : Refuses a (.defect (.unrenderable f))

theorem refuses_refuse {α : Type} {a : Argument} {problem : Shown → ArgumentProblem}
    (hdetails : ∀ shown, (problem shown).details = [(.text a.name, shown.value)])
    (h : ¬ a.value.Overflows) :
    ∃ e, (a.value.refuse problem : Except Failure α) = .error e ∧ a.Refuses e := by
  unfold Value.refuse Value.inspected
  cases hshown : a.value.inspect with
  | ok t => exact ⟨_, rfl, .named h hshown (hdetails _)⟩
  | error f => exact ⟨_, rfl, .unshown h hshown (Value.failsOnly_inspect a.value f hshown)⟩

/-- The check of one argument: it is accepted as it is, or refused. -/
def Checks (a : Argument) (r : Except Failure Number) : Prop :=
  (a.Accepted ∧ ∃ n, r = .ok n ∧ n.toValue = a.value) ∨ (¬ a.Accepted ∧ ∃ e, r = .error e ∧ a.Refuses e)

end Argument

open Argument (coordinate radius)

/-! ## Checks in order -/

/-- The error is that of the first argument that is not accepted. -/
def RefusesFirst (args : List Argument) (e : Failure) : Prop :=
  ∃ before a after, args = before ++ a :: after ∧ (∀ b ∈ before, b.Accepted) ∧ ¬ a.Accepted ∧ a.Refuses e

/-- The computation checks arguments in order. It gives a result as `P` says if all are accepted, and
otherwise the error of the first one that is not. -/
inductive ChecksInOrder {α : Type} (P : α → Prop) : List Argument → Except Failure α → Prop
  | done {c : α} : P c → ChecksInOrder P [] (.ok c)
  | refused {a : Argument} {args : List Argument} {e : Failure} :
    ¬ a.Accepted → a.Refuses e → ChecksInOrder P (a :: args) (.error e)
  | accepted {a : Argument} {args : List Argument} {x : Except Failure α} :
    a.Accepted → ChecksInOrder P args x → ChecksInOrder P (a :: args) x

namespace ChecksInOrder

variable {α : Type} {P : α → Prop} {args : List Argument} {x : Except Failure α}

/-- Arguments are checked in order if the first one is, and the rest after it. -/
theorem bind {a : Argument} {r : Except Failure Number} {f : Number → Except Failure α}
    (hr : a.Checks r) (hf : ∀ n, n.toValue = a.value → ChecksInOrder P args (f n)) :
    ChecksInOrder P (a :: args) (r >>= f) := by
  rcases hr with ⟨ha, n, rfl, hn⟩ | ⟨ha, e, rfl, he⟩
  · exact .accepted ha (hf n hn)
  · exact .refused ha he

theorem ok_iff (h : ChecksInOrder P args x) : (∃ c, x = .ok c) ↔ ∀ a ∈ args, a.Accepted := by
  induction h with
  | done => exact iff_of_true ⟨_, rfl⟩ nofun
  | refused ha => exact iff_of_false nofun fun h => ha (List.forall_mem_cons.1 h).1
  | accepted ha _ ih => rw [ih, List.forall_mem_cons, and_iff_right ha]

theorem of_ok (h : ChecksInOrder P args x) : ∀ c, x = .ok c → P c := by
  induction h with
  | done hc =>
    intro c h
    cases h
    exact hc
  | refused => exact nofun
  | accepted _ _ ih => exact ih

theorem of_error (h : ChecksInOrder P args x) : ∀ e, x = .error e → RefusesFirst args e := by
  induction h with
  | done => exact nofun
  | refused ha he =>
    intro e h
    cases h
    exact ⟨[], _, _, rfl, nofun, ha, he⟩
  | accepted ha _ ih =>
    intro e h
    obtain ⟨before, b, after, rfl, hbefore, hb, he⟩ := ih e h
    exact ⟨_ :: before, b, after, rfl, List.forall_mem_cons.2 ⟨ha, hbefore⟩, hb, he⟩

end ChecksInOrder

/-! ## Checks of single arguments -/

/-- A number passes a test, or its value is refused. -/
def checkNumber (test : Number → Bool) (notNumber improper : Shown → ArgumentProblem) (v : Value) :
    Except Failure Number :=
  match Number.ofValue? v with
  | none => v.refuse notNumber
  | some n => do if (← n.checkFinite) && test n then pure n else v.refuse improper

theorem checkFinite_of_overflows {n : Int} (h : (Value.int n).Overflows) :
    (Number.int n).checkFinite = .error (.defect .tooLarge) :=
  if_neg (Bool.not_eq_true _ ▸ (Value.overflows_int n).1 h)

theorem checkFinite_of_not_overflows {n : Int} (h : ¬ (Value.int n).Overflows) :
    (Number.int n).checkFinite = .ok true :=
  if_pos (by simpa [Value.overflows_int] using h)

section CheckNumber

variable {a : Argument} {test : Number → Bool} {notNumber improper : Shown → ArgumentProblem}

theorem checks_of_notNumber (hnotNumber : ∀ shown, (notNumber shown).details = [(.text a.name, shown.value)])
    (hnone : Number.ofValue? a.value = none) : a.Checks (checkNumber test notNumber improper a.value) := by
  have hexact : a.value.rational? = none := by
    cases hv : a.value with
    | int n => rw [hv] at hnone; cases hnone
    | float x => rw [hv] at hnone; cases hnone
    | _ => rfl
  have hsmall : ¬ a.value.Overflows := by
    rintro ⟨n, hn, -⟩
    rw [hn] at hnone
    cases hnone
  obtain ⟨e, he, hrefuses⟩ := Argument.refuses_refuse (α := Number) hnotNumber hsmall
  refine .inr ⟨fun ⟨⟨q, hq, _⟩, _⟩ => ?_, e, ?_, hrefuses⟩
  · cases hexact.symm.trans hq
  · unfold checkNumber
    rw [hnone]
    exact he

/-- A number that double precision can hold is accepted where it passes the test. -/
theorem checks_of_checkFinite (himproper : ∀ shown, (improper shown).details = [(.text a.name, shown.value)])
    {n : Number} {finite : Bool} (hn : Number.ofValue? a.value = some n) (hvalue : n.toValue = a.value)
    (hfinite : n.checkFinite = .ok finite) (hsmall : ¬ a.value.Overflows)
    (htest : (finite && test n) = true ↔ ∃ q, a.value.rational? = some q ∧ a.allowed q) :
    a.Checks (checkNumber test notNumber improper a.value) := by
  have hcheck : checkNumber test notNumber improper a.value =
      if finite && test n then .ok n else a.value.refuse improper := by
    unfold checkNumber
    rw [hn]
    change (n.checkFinite >>= fun finite => if finite && test n then pure n else _) = _
    rw [hfinite]
    rfl
  rw [hcheck]
  by_cases hpassed : (finite && test n) = true
  · rw [if_pos hpassed]
    exact .inl ⟨⟨htest.1 hpassed, hsmall⟩, n, rfl, hvalue⟩
  · obtain ⟨e, he, hrefuses⟩ := Argument.refuses_refuse (α := Number) himproper hsmall
    rw [if_neg hpassed]
    exact .inr ⟨fun haccepted => hpassed (htest.2 haccepted.1), e, he, hrefuses⟩

/-- The check of a number, given that its test and its problems are those of the argument. -/
theorem checks_checkNumber (hnotNumber : ∀ shown, (notNumber shown).details = [(.text a.name, shown.value)])
    (himproper : ∀ shown, (improper shown).details = [(.text a.name, shown.value)])
    (hint : ∀ n : Int, test (.int n) = true ↔ a.allowed n)
    (hfloat : ∀ x : Binary64, x.isFinite = true → (test (.float x) = true ↔ a.allowed x.exact)) :
    a.Checks (checkNumber test notNumber improper a.value) := by
  cases hnumber : Number.ofValue? a.value with
  | none => exact checks_of_notNumber hnotNumber hnumber
  | some number =>
    obtain ⟨name, allowed, v⟩ := a
    cases v with
    | int n =>
      cases hnumber
      by_cases hoverflow : (Value.int n).Overflows
      · refine .inr ⟨fun h => h.2 hoverflow, _, ?_, Argument.Refuses.overflow hoverflow⟩
        change ((Number.int n).checkFinite >>= _) = _
        rw [checkFinite_of_overflows hoverflow]
        rfl
      · refine checks_of_checkFinite himproper rfl rfl (checkFinite_of_not_overflows hoverflow) hoverflow ?_
        rw [Bool.true_and, hint]
        exact ⟨fun h => ⟨n, rfl, h⟩, fun ⟨q, hq, h⟩ => by cases hq; exact h⟩
    | float x =>
      cases hnumber
      have hsmall : ¬ (Value.float x).Overflows := fun ⟨n, hn, _⟩ => by cases hn
      refine checks_of_checkFinite himproper rfl rfl rfl hsmall ?_
      cases hx : x.isFinite with
      | false => simp [Value.rational?, hx]
      | true => simp [Value.rational?, hx, hfloat x hx]
    | _ => cases hnumber

end CheckNumber

theorem checks_coordinate (name : Text) (bound : Nat) (v : Value) :
    (coordinate name bound v).Checks (checkCoordinate name bound v) := by
  change (coordinate name bound v).Checks
    (checkNumber (·.isWithin bound) (.notNumber name) (.outOfRange name bound) v)
  refine checks_checkNumber (a := coordinate name bound v) (fun _ => rfl) (fun _ => rfl) (fun n => ?_)
    fun x hx => Binary64.isWithin_iff hx bound
  change decide (n.natAbs ≤ bound) = true ↔ |(n : ℚ)| ≤ bound
  rw [decide_eq_true_iff, ← Int.cast_abs, Int.abs_eq_natAbs, Int.cast_natCast]
  exact Nat.cast_le.symm

theorem checks_radius (v : Value) : (radius v).Checks (checkMeters v) := by
  change (radius v).Checks (checkNumber Number.isPositive .badRadius .badRadius v)
  refine checks_checkNumber (a := radius v) (fun _ => rfl) (fun _ => rfl) (fun n => ?_)
    fun x hx => Binary64.isPositive_iff hx
  change decide (0 < n) = true ↔ (0 : ℚ) < n
  rw [decide_eq_true_iff, Int.cast_pos]

/-! ## Shapes -/

/-- The arguments of a circle are checked in order, and kept as they are. -/
theorem checksInOrder_circle (lat lon m : Value) :
    ChecksInOrder (fun c : Circle => c.latitude.toValue = lat ∧ c.longitude.toValue = lon ∧
        c.meters.toValue = m)
      [coordinate "latitude" 90 lat, coordinate "longitude" 180 lon, radius m]
      (Circle.make lat lon m) := by
  apply ChecksInOrder.bind (checks_coordinate _ _ lat)
  intro latitude hlat
  apply ChecksInOrder.bind (checks_coordinate _ _ lon)
  intro longitude hlon
  apply ChecksInOrder.bind (checks_radius m)
  intro meters hm
  exact .done ⟨hlat, hlon, hm⟩

theorem checksInOrder_rectangle (a b c d : Value) :
    ChecksInOrder (fun r : Rectangle => r.topLeftLat.toValue = a ∧ r.topLeftLon.toValue = b ∧
        r.bottomRightLat.toValue = c ∧ r.bottomRightLon.toValue = d)
      [coordinate "top_left_lat" 90 a, coordinate "top_left_lon" 180 b,
        coordinate "bottom_right_lat" 90 c, coordinate "bottom_right_lon" 180 d]
      (Rectangle.make a b c d) := by
  apply ChecksInOrder.bind (checks_coordinate _ _ a)
  intro top ha
  apply ChecksInOrder.bind (checks_coordinate _ _ b)
  intro left hb
  apply ChecksInOrder.bind (checks_coordinate _ _ c)
  intro bottom hc
  apply ChecksInOrder.bind (checks_coordinate _ _ d)
  intro right hd
  exact .done ⟨ha, hb, hc, hd⟩

/-- A circle is made of exactly the values that are coordinates and a positive radius, but for a radius that
double precision rounds to infinity, and a rectangle of exactly those that are coordinates. Otherwise the
first argument that is not accepted is refused. -/
theorem make_iff (lat lon m a b c d : Value) :
    (((∃ r, Circle.make lat lon m = .ok r) ↔
        lat.IsCoordinate 90 ∧ lon.IsCoordinate 180 ∧ m.IsLength ∧ ¬ m.Overflows) ∧
      (∀ r, Circle.make lat lon m = .ok r →
        r.latitude.toValue = lat ∧ r.longitude.toValue = lon ∧ r.meters.toValue = m) ∧
      ∀ e, Circle.make lat lon m = .error e →
        RefusesFirst [coordinate "latitude" 90 lat, coordinate "longitude" 180 lon, radius m] e) ∧
    ((∃ r, Rectangle.make a b c d = .ok r) ↔
        a.IsCoordinate 90 ∧ b.IsCoordinate 180 ∧ c.IsCoordinate 90 ∧ d.IsCoordinate 180) ∧
      (∀ r, Rectangle.make a b c d = .ok r →
        r.topLeftLat.toValue = a ∧ r.topLeftLon.toValue = b ∧ r.bottomRightLat.toValue = c ∧
          r.bottomRightLon.toValue = d) ∧
      ∀ e, Rectangle.make a b c d = .error e →
        RefusesFirst [coordinate "top_left_lat" 90 a, coordinate "top_left_lon" 180 b,
          coordinate "bottom_right_lat" 90 c, coordinate "bottom_right_lon" 180 d] e := by
  have hlat : ∀ {name : Text} {v : Value}, (coordinate name 90 v).Accepted ↔ v.IsCoordinate 90 :=
    Argument.accepted_coordinate (by decide)
  have hlon : ∀ {name : Text} {v : Value}, (coordinate name 180 v).Accepted ↔ v.IsCoordinate 180 :=
    Argument.accepted_coordinate (by decide)
  have hcircle := checksInOrder_circle lat lon m
  have hrectangle := checksInOrder_rectangle a b c d
  refine ⟨⟨?_, hcircle.of_ok, hcircle.of_error⟩, ?_, hrectangle.of_ok, hrectangle.of_error⟩
  · rw [hcircle.ok_iff, List.forall_mem_cons, List.forall_mem_cons, List.forall_mem_singleton, hlat, hlon]
    exact Iff.rfl
  · rw [hrectangle.ok_iff, List.forall_mem_cons, List.forall_mem_cons, List.forall_mem_cons,
      List.forall_mem_singleton, hlat, hlon, hlat, hlon]

theorem make_iff_corner :
    (∃ r, Circle.make (.int 90) (.int (-180)) (.int 1) = .ok r ∧ r.longitude.toValue = .int (-180)) ∧
      ∃ r, Rectangle.make (.int 90) (.int (-180)) (.int 90) (.int (-180)) = .ok r ∧
        r.topLeftLat.toValue = .int 90 := by
  obtain ⟨⟨hcircle, hcircleKept, -⟩, hrectangle, hrectangleKept, -⟩ :=
    make_iff (.int 90) (.int (-180)) (.int 1) (.int 90) (.int (-180)) (.int 90) (.int (-180))
  have hlat : (Value.int 90).IsCoordinate 90 := ⟨_, rfl, by norm_num⟩
  have hlon : (Value.int (-180)).IsCoordinate 180 := ⟨_, rfl, by norm_num⟩
  have hradius : (Value.int 1).IsCoordinate 90 := ⟨_, rfl, by norm_num⟩
  obtain ⟨r, hr⟩ := hcircle.2 ⟨hlat, hlon, ⟨_, rfl, by norm_num⟩, hradius.not_overflows (by decide)⟩
  obtain ⟨s, hs⟩ := hrectangle.2 ⟨hlat, hlon, hlat, hlon⟩
  exact ⟨⟨r, hr, (hcircleKept r hr).2.1⟩, s, hs, (hrectangleKept s hs).1⟩

/-- A whole number beyond double precision is refused with an overflow: as a latitude, which cannot be that
large, and as a radius, which can. -/
theorem make_overflows :
    ¬ (Value.int (10 ^ 400)).IsCoordinate 90 ∧ (Value.int (10 ^ 400)).IsLength ∧
      Circle.make (.int (10 ^ 400)) (.int 0) (.int 1) = .error (.defect .tooLarge) ∧
      Circle.make (.int 0) (.int 0) (.int (10 ^ 400)) = .error (.defect .tooLarge) ∧
      (Failure.defect .tooLarge).kind ≠ .invalidArgument := by
  have hoverflow : (Value.int (10 ^ 400)).Overflows := ⟨_, rfl, by decide +kernel⟩
  have hfinite := checkFinite_of_overflows hoverflow
  have hcoordinate : (Value.int 0).IsCoordinate 90 := ⟨_, rfl, by simp⟩
  have hzero := checkFinite_of_not_overflows (hcoordinate.not_overflows (by decide))
  refine ⟨fun h => h.not_overflows (by decide) hoverflow, ⟨_, rfl, ?_⟩, ?_, ?_, nofun⟩
  · exact Int.cast_pos.2 (by decide +kernel)
  · simp only [Circle.make, checkLatitude, checkCoordinate, Number.ofValue?, hfinite, bind, Except.bind]
  · simp only [Circle.make, checkLatitude, checkLongitude, checkCoordinate, checkMeters, Number.ofValue?,
      hfinite, hzero, bind, Except.bind]
    rfl

end Geo

end RowQuery
