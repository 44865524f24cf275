import RowQuery.Json.Printer
import RowQuery.Proofs.Json.Shape
import RowQuery.Proofs.Text.WellFormed

/-!
# Values that JSON encodes

The check of a value and its encoding as JSON are two walks over it. The check looks at the elements of
lists and tuples and at the values of mappings; the encoding also looks at the keys of mappings. So a
finite value is encoded exactly when every mapping in it has keys that JSON allows.
-/

namespace RowQuery

set_option autoImplicit false

/-! ## Renderings -/

/-- The failure is about a key of a mapping, where no value is a NaN or an infinity. -/
def RenderFailure.IsKeyFailure (e : RenderFailure) : Prop := e = .nonFinite ∨ ∃ type, e = .badKey type

/-- Under the condition `p`, and only then, the rendering succeeds, with a good result; otherwise a key
is in the way. -/
def Renders {α : Type} (p : Prop) (good : α → Prop) (x : Except RenderFailure α) : Prop :=
  p ∧ (∃ a, x = .ok a ∧ good a) ∨ ¬ p ∧ ∃ e, x = .error e ∧ e.IsKeyFailure

namespace Renders

variable {α β : Type} {p q : Prop} {good : α → Prop} {good' : β → Prop} {x : Except RenderFailure α}

theorem of_ok {a : α} (h : good a) : Renders True good (.ok a) := .inl ⟨trivial, a, rfl, h⟩

theorem congr (hx : Renders p good x) (hpq : p ↔ q) : Renders q good x := by
  unfold Renders at hx ⊢
  rwa [← hpq]

theorem bind (hx : Renders p good x) {f : α → Except RenderFailure β}
    (hf : ∀ a, good a → Renders q good' (f a)) : Renders (p ∧ q) good' (x >>= f) := by
  rcases hx with ⟨hp, a, rfl, ha⟩ | ⟨hp, e, rfl, he⟩
  · rcases hf a ha with ⟨hq, hb⟩ | ⟨hq, he⟩
    · exact .inl ⟨⟨hp, hq⟩, hb⟩
    · exact .inr ⟨fun h => hq h.2, he⟩
  · exact .inr ⟨fun h => hp h.1, e, rfl, he⟩

theorem map (hx : Renders p good x) {f : α → β} (hf : ∀ a, good a → good' (f a)) :
    Renders p good' (x.map f) := by
  rcases hx with ⟨hp, a, rfl, ha⟩ | ⟨hp, e, rfl, he⟩
  · exact .inl ⟨hp, f a, rfl, hf a ha⟩
  · exact .inr ⟨hp, e, rfl, he⟩

theorem mapM {p : β → Prop} {f : β → Except RenderFailure α} {bs : List β}
    (h : ∀ b ∈ bs, Renders (p b) good (f b)) :
    Renders (∀ b ∈ bs, p b) (fun as => ∀ a ∈ as, good a) (bs.mapM f) := by
  induction bs with
  | nil => exact (of_ok (by simp)).congr (by simp)
  | cons b bs ih =>
    have hrest := ih fun c hc => h c (List.mem_cons_of_mem _ hc)
    rw [List.mapM_cons, List.forall_mem_cons]
    refine (h b List.mem_cons_self).bind fun a ha => ?_
    exact hrest.map fun as has => List.forall_mem_cons.2 ⟨ha, has⟩

theorem ok_iff (hx : Renders p good x) : (∃ a, x = .ok a) ↔ p := by
  rcases hx with ⟨hp, a, rfl, -⟩ | ⟨hp, e, rfl, -⟩
  · exact ⟨fun _ => hp, fun _ => ⟨a, rfl⟩⟩
  · refine ⟨?_, fun h => absurd h hp⟩
    rintro ⟨a, ⟨⟩⟩

theorem keyFailure (hx : Renders p good x) {e : RenderFailure} (he : x = .error e) :
    e.IsKeyFailure := by
  rcases hx with ⟨-, a, rfl, -⟩ | ⟨-, e', rfl, he'⟩
  · cases he
  · cases he
    exact he'

end Renders

/-! ## Plain values -/

namespace Value

mutual

/-- A value built from null, truth values, numbers, texts without lone surrogate halves, lists, tuples
and mappings; the digits of its integers are not too many. -/
def Plain : Value → Prop
  | null | bool _ | float _ => True
  | int n => Decimal.length n.natAbs ≤ Literal.maxIntDigits
  | text t => t.isWellFormed = true
  | list items | tuple items => AllPlain items
  | mapping members => AllMembersPlain members
  | _ => False

def AllPlain : List Value → Prop
  | [] => True
  | v :: vs => Plain v ∧ AllPlain vs

def AllMembersPlain : List (Value × Value) → Prop
  | [] => True
  | (k, v) :: ms => Plain k ∧ Plain v ∧ AllMembersPlain ms

end

/-- What a JSON object may have as a key. -/
def IsJsonKey : Value → Prop
  | null | bool _ | int _ | text _ => True
  | float x => x.isFinite = true
  | _ => False

mutual

/-- Every mapping in the value has keys that JSON allows. -/
def HasJsonKeys : Value → Prop
  | list items | tuple items => AllHaveJsonKeys items
  | mapping members => AllMembersHaveJsonKeys members
  | _ => True

def AllHaveJsonKeys : List Value → Prop
  | [] => True
  | v :: vs => HasJsonKeys v ∧ AllHaveJsonKeys vs

def AllMembersHaveJsonKeys : List (Value × Value) → Prop
  | [] => True
  | (k, v) :: ms => k.IsJsonKey ∧ HasJsonKeys v ∧ AllMembersHaveJsonKeys ms

end

end Value

theorem intText_plain {n : Int} (h : (Value.int n).Plain) : intText n = .ok (Text.ofInt n) :=
  if_neg (Nat.not_lt.2 h)

namespace Json

open Value (Plain AllPlain AllMembersPlain HasJsonKeys AllHaveJsonKeys AllMembersHaveJsonKeys)

/-- The text of an atom holds no lone surrogate half. -/
def WellFormedAtom : Json → Prop
  | text t => t.isWellFormed = true
  | _ => True

theorem isWellFormed_floatText (x : Binary64) : (floatText x).isWellFormed = true := by
  unfold floatText
  split
  · exact Text.isWellFormed_ofString _
  · simp
  · exact Binary64.isWellFormed_toText x

/-! ## Encoding -/

/-- A key has a text exactly when JSON allows it. -/
theorem keyText_renders {k : Value} (hk : k.Plain) :
    Renders k.IsJsonKey (fun t => t.isWellFormed = true) (keyText strict k) := by
  cases k with
  | null => exact .of_ok (Text.isWellFormed_ofString _)
  | bool b => exact .of_ok (by cases b <;> exact Text.isWellFormed_ofString _)
  | int n =>
    rw [keyText, intText_plain hk]
    exact .of_ok (Text.isWellFormed_ofInt n)
  | float x =>
    cases hx : x.isFinite with
    | true =>
      have hkey : keyText strict (.float x) = .ok (floatText x) := by simp [keyText, hx]
      have hallowed : True ↔ (Value.float x).IsJsonKey := by simp [Value.IsJsonKey, hx]
      have hok : Renders True (fun t : Text => t.isWellFormed = true) (.ok (floatText x)) :=
        .of_ok (isWellFormed_floatText x)
      rw [hkey]
      exact hok.congr hallowed
    | false =>
      have hkey : keyText strict (.float x) = .error .nonFinite := by simp [keyText, strict, hx]
      rw [hkey]
      exact .inr ⟨by simp [Value.IsJsonKey, hx], _, rfl, .inl rfl⟩
  | text t => exact .of_ok hk
  | list | tuple | mapping => exact .inr ⟨id, _, rfl, .inr ⟨_, rfl⟩⟩
  | octets | set | word | filter | circle | rectangle | query | store => exact hk.elim

mutual

/-- A plain finite value has a JSON form exactly when its mappings have keys that JSON allows. -/
theorem ofValue_renders : ∀ v : Value, v.Plain → v.isFinite = true →
    Renders v.HasJsonKeys (Every WellFormedAtom) (ofValue strict v)
  | .null, _, _ | .bool _, _, _ => .of_ok trivial
  | .int n, hv, _ => by
    rw [ofValue, intText_plain hv]
    exact .of_ok trivial
  | .float x, _, hf => by
    have hx : x.isFinite = true := hf
    rw [ofValue, hx, Bool.or_true, if_pos rfl]
    exact .of_ok trivial
  | .text t, hv, _ => .of_ok hv
  | .list items, hv, hf | .tuple items, hv, hf => by
    rw [ofValue]
    exact (ofValues_renders items hv hf).map fun _ hjs => hjs
  | .mapping members, hv, hf => by
    rw [ofValue]
    exact (ofMembers_renders members hv hf).map fun _ hms => hms
  | .octets _, hv, _ | .set _, hv, _ | .word _, hv, _ | .filter _, hv, _ | .circle _, hv, _
  | .rectangle _, hv, _ | .query _, hv, _ | .store .., hv, _ => hv.elim

theorem ofValues_renders : ∀ vs : List Value, AllPlain vs → Value.allFinite vs = true →
    Renders (AllHaveJsonKeys vs) (EveryItem WellFormedAtom) (ofValues strict vs)
  | [], _, _ => .of_ok trivial
  | v :: vs, hvs, hf => by
    obtain ⟨hv, hvs⟩ := hvs
    obtain ⟨hfirst, hrest⟩ := Bool.and_eq_true_iff.1 hf
    rw [ofValues]
    apply (ofValue_renders v hv hfirst).bind
    intro j hj
    apply (ofValues_renders vs hvs hrest).map
    intro js hjs
    exact ⟨hj, hjs⟩

theorem ofMembers_renders : ∀ ms : List (Value × Value), AllMembersPlain ms →
    Value.allMembersFinite ms = true →
      Renders (AllMembersHaveJsonKeys ms) (EveryMember WellFormedAtom) (ofMembers strict ms)
  | [], _, _ => .of_ok trivial
  | (k, v) :: ms, hms, hf => by
    obtain ⟨hk, hv, hms⟩ := hms
    obtain ⟨hfirst, hrest⟩ := Bool.and_eq_true_iff.1 hf
    rw [ofMembers]
    apply (keyText_renders hk).bind
    intro t ht
    apply (ofValue_renders v hv hfirst).bind
    intro j hj
    apply (ofMembers_renders ms hms hrest).map
    intro js hjs
    exact ⟨ht, hj, hjs⟩

end

/-! ## Text -/

theorem isWellFormed_escapeUnit (n : Nat) : (escapeUnit n).isWellFormed = true := by
  simp [escapeUnit]

theorem isWellFormed_escapeByNumber (n : Nat) : (escapeByNumber n).isWellFormed = true := by
  unfold escapeByNumber
  split
  · exact isWellFormed_escapeUnit n
  · rw [Text.isWellFormed_append, isWellFormed_escapeUnit, isWellFormed_escapeUnit, Bool.and_self]

theorem isWellFormed_escaped (c : CodePoint) : (escaped false c).isWellFormed = c.isScalar := by
  unfold escaped
  split
  case h_8 =>
    split
    · next hc =>
      cases c with
      | scalar c => exact isWellFormed_escapeByNumber _
      | lone half =>
        have hcontrol : (CodePoint.lone half).toNat < 0x20 := by simpa using hc
        exact absurd (Nat.lt_of_le_of_lt (Nat.le_add_right 0xD800 half.val) hcontrol) (by decide)
    · simp
  all_goals simp

/-- Quoting adds no lone surrogate half, and drops none. -/
theorem isWellFormed_quotedText (t : Text) : (quotedText false t).isWellFormed = t.isWellFormed := by
  have hbody : Text.isWellFormed (t.flatMap (escaped false)) = t.isWellFormed := by
    induction t with
    | nil => rfl
    | cons c t ih => simp [isWellFormed_escaped, ih]
  unfold quotedText
  simp [hbody]

/-- A layout that adds no lone surrogate half and escapes none. -/
structure Layout.IsVerbatim (layout : Layout) : Prop where
  ascii : layout.ascii = false
  comma : layout.comma.isWellFormed = true
  colon : layout.colon.isWellFormed = true

theorem isVerbatim_wire : wire.IsVerbatim := ⟨rfl, rfl, rfl⟩

theorem isVerbatim_indented : indented.IsVerbatim := ⟨rfl, rfl, rfl⟩

@[simp] theorem isWellFormed_gap (layout : Layout) (level : Nat) :
    (layout.gap level).isWellFormed = true := by
  unfold Layout.gap
  split
  · rfl
  · simp

section Layouts

variable {layout : Layout} (hl : layout.IsVerbatim)
include hl

mutual

/-- The text of data holds a lone surrogate half exactly when a text in the data does. -/
theorem isWellFormed_renderAt (level : Nat) : ∀ j : Json,
    (renderAt layout level j).isWellFormed = true ↔ j.Every WellFormedAtom
  | null => by simp [renderAt, Every, WellFormedAtom]
  | bool b => by simp [renderAt, Every, WellFormedAtom]
  | int n => by simp [renderAt, Every, WellFormedAtom]
  | float x => by simp [renderAt, Every, WellFormedAtom, isWellFormed_floatText]
  | text t => by simp [renderAt, Every, WellFormedAtom, hl.ascii, isWellFormed_quotedText]
  | array [] => by simp [renderAt, Every, EveryItem]
  | array (j :: js) => by
    have hfirst := isWellFormed_renderAt (level + 1) j
    have hrest := isWellFormed_renderItems level js
    simp [renderAt, Every, EveryItem, hfirst, hrest]
  | object [] => by simp [renderAt, Every, EveryMember]
  | object ((k, j) :: ms) => by
    have hfirst := isWellFormed_renderAt (level + 1) j
    have hrest := isWellFormed_renderMembers level ms
    simp [renderAt, Every, EveryMember, WellFormedAtom, hl.ascii, hl.colon, isWellFormed_quotedText,
      hfirst, hrest]

theorem isWellFormed_renderItems (level : Nat) : ∀ js : List Json,
    (renderItems layout level js).isWellFormed = true ↔ EveryItem WellFormedAtom js
  | [] => by simp [renderItems, EveryItem]
  | j :: js => by
    have hfirst := isWellFormed_renderAt (level + 1) j
    have hrest := isWellFormed_renderItems level js
    simp [renderItems, EveryItem, hl.comma, hfirst, hrest]

theorem isWellFormed_renderMembers (level : Nat) : ∀ ms : List (Text × Json),
    (renderMembers layout level ms).isWellFormed = true ↔ EveryMember WellFormedAtom ms
  | [] => by simp [renderMembers, EveryMember]
  | (k, j) :: ms => by
    have hfirst := isWellFormed_renderAt (level + 1) j
    have hrest := isWellFormed_renderMembers level ms
    simp [renderMembers, EveryMember, WellFormedAtom, hl.ascii, hl.comma, hl.colon,
      isWellFormed_quotedText, hfirst, hrest]

end

end Layouts

end Json

/-- A plain finite value has a JSON text exactly when its mappings have keys that JSON allows. -/
theorem Value.toJsonText_renders {v : Value} (hv : v.Plain) (hf : v.isFinite = true) :
    Renders v.HasJsonKeys (fun t => t.isWellFormed = true) v.toJsonText :=
  (Json.ofValue_renders v hv hf).map fun j hj => (Json.isWellFormed_renderAt Json.isVerbatim_wire 0 j).2 hj

end RowQuery
