import RowQuery.Json.Printer
import RowQuery.Proofs.Filter.Construction
import RowQuery.Proofs.Text.WellFormed
import RowQuery.Proofs.Url.Form
import RowQuery.Store.Rendering
import RowQuery.Text.Controls

/-!
# Texts without control sequences

A control sequence starts with an escape character. No number holds one, JSON text spells it by number
and a query string by percent escapes. So JSON text and query strings are printed as they are.
-/

namespace RowQuery

set_option autoImplicit false

/-- The character that every control sequence starts with. -/
abbrev CodePoint.escape : CodePoint := .scalar '\x1b'

namespace Text

theorem controlLength_cons {c : CodePoint} (hc : c ≠ .escape) (t : Text) :
    controlLength (c :: t) = 0 := by
  unfold controlLength
  split
  · next heq => exact absurd (List.cons.inj heq).1 hc
  · rfl

/-- A text without escape characters is printed as it is. -/
theorem dropControls_of_notMem {t : Text} (h : .escape ∉ t) : t.dropControls = t := by
  unfold dropControls
  induction t with
  | nil => rfl
  | cons c t ih =>
    obtain ⟨hc, ht⟩ := not_or.1 (mt List.mem_cons.2 h)
    rw [dropControlsFrom, controlLength_cons (Ne.symm hc)]
    exact congrArg _ (ih ht)

theorem mem_of_mem_dropControlsFrom {t : Text} : ∀ skip, ∀ c ∈ dropControlsFrom skip t, c ∈ t := by
  induction t with
  | nil =>
    intro skip c hc
    cases skip <;> exact hc
  | cons d t ih =>
    rintro (_ | skip) c hc
    · rw [dropControlsFrom] at hc
      split at hc
      · rcases List.mem_cons.1 hc with rfl | hc
        · exact List.mem_cons_self
        · exact List.mem_cons_of_mem _ (ih 0 c hc)
      · exact List.mem_cons_of_mem _ (ih _ c hc)
    · exact List.mem_cons_of_mem _ (ih skip c hc)

/-- Dropping control sequences adds no lone surrogate half. -/
theorem isWellFormed_dropControls {t : Text} (h : t.isWellFormed = true) :
    t.dropControls.isWellFormed = true := by
  rw [isWellFormed_iff] at h ⊢
  exact fun c hc => h c (mem_of_mem_dropControlsFrom 0 c hc)

/-! ## Numbers -/

@[simp] theorem escape_notMem_ofNat (n : Nat) : .escape ∉ ofNat n := by
  intro h
  obtain ⟨c, hc, he⟩ := List.mem_map.1 h
  cases he
  exact absurd (Nat.isDigit_of_mem_toDigits (by decide) (by decide) hc) (by decide)

@[simp] theorem escape_notMem_ofInt (n : Int) : .escape ∉ ofInt n := by
  cases n with
  | ofNat n => exact escape_notMem_ofNat n
  | negSucc n => simp [ofInt]

end Text

namespace Binary64

@[simp] theorem escape_notMem_minus (negative : Bool) : .escape ∉ minus negative := by
  cases negative <;> decide

theorem escape_notMem_decimalText (d : Decimal) : .escape ∉ decimalText d := by
  have hdigits : .escape ∉ Text.ofNat d.digits := Text.escape_notMem_ofNat _
  have hexponent : ∀ e, .escape ∉ exponentText e := fun e => by
    unfold exponentText Text.padStart
    split <;> simp
  unfold decimalText pointed
  dsimp only
  split
  · split
    · next hd =>
      rw [hd] at hdigits
      simpa [hexponent] using hdigits
    · next hd =>
      rw [hd] at hdigits
      simpa [hexponent] using hdigits
    · simp [hexponent]
  · split
    · simp [Text.ofString, Text.ofChars]
    · split
      · simp [Text.ofString, Text.ofChars]
      · have htake := fun n => mt (List.mem_of_mem_take (i := n)) hdigits
        have hdrop := fun n => mt (List.mem_of_mem_drop (i := n)) hdigits
        simp [htake, hdrop]

theorem escape_notMem_toText (x : Binary64) : .escape ∉ x.toText := by
  cases x with
  | undefined => exact show .escape ∉ Text.ofString "nan" by decide
  | infinite negative => cases negative <;> decide
  | finite negative rank =>
    have hdecimal := escape_notMem_decimalText (Decimal.shortest rank)
    change .escape ∉ minus negative ++ (if rank.val = 0 then Text.ofString "0.0" else _)
    split
    · cases negative <;> decide
    · simp [hdecimal]

end Binary64

/-! ## JSON text -/

namespace Json

@[simp] theorem escape_notMem_floatText (x : Binary64) : .escape ∉ floatText x := by
  unfold floatText
  split
  · decide
  · next negative => cases negative <;> decide
  · exact Binary64.escape_notMem_toText x

theorem escape_notMem_escaped (c : CodePoint) : .escape ∉ escaped false c := by
  have hcontrols : ∀ n < 0x20, CodePoint.escape ∉ escapeByNumber n := by decide
  unfold escaped
  split
  -- All other cases are escapes of a fixed letter.
  case h_8 =>
    split
    · next hc => exact hcontrols _ (by simpa using hc)
    · next hc =>
      intro h
      rw [← List.mem_singleton.1 h] at hc
      exact hc rfl
  all_goals decide

/-- A string writes the escape character by its number. -/
@[simp] theorem escape_notMem_quotedText (t : Text) : .escape ∉ quotedText false t := by
  have hbody : .escape ∉ t.flatMap (escaped false) := by
    intro h
    obtain ⟨c, -, hc⟩ := List.mem_flatMap.1 h
    exact escape_notMem_escaped c hc
  simp [quotedText, hbody]

@[simp] theorem escape_notMem_gap (level : Nat) : .escape ∉ indented.gap level := by
  simp [Layout.gap, indented, List.mem_replicate]

theorem escape_notMem_separators : .escape ∉ indented.comma ∧ .escape ∉ indented.colon := by decide

mutual

/-- No text of JSON data holds an escape character: in strings it is spelt by number. -/
theorem escape_notMem_renderAt (level : Nat) : ∀ j : Json, .escape ∉ renderAt indented level j
  | null => by
    rw [renderAt]
    decide
  | bool b => by
    rw [renderAt]
    cases b <;> decide
  | int n => Text.escape_notMem_ofInt n
  | float x => escape_notMem_floatText x
  | text t => escape_notMem_quotedText t
  | array [] => by
    rw [renderAt]
    decide
  | array (j :: js) => by
    have hfirst := escape_notMem_renderAt (level + 1) j
    have hrest := escape_notMem_renderItems level js
    simp [renderAt, hfirst, hrest]
  | object [] => by
    rw [renderAt]
    decide
  | object ((k, j) :: ms) => by
    have hkey : .escape ∉ quotedText indented.ascii k := escape_notMem_quotedText k
    have hfirst := escape_notMem_renderAt (level + 1) j
    have hrest := escape_notMem_renderMembers level ms
    simp [renderAt, hkey, hfirst, hrest, escape_notMem_separators]

theorem escape_notMem_renderItems (level : Nat) :
    ∀ js : List Json, .escape ∉ renderItems indented level js
  | [] => by simp [renderItems]
  | j :: js => by
    have hfirst := escape_notMem_renderAt (level + 1) j
    have hrest := escape_notMem_renderItems level js
    simp [renderItems, hfirst, hrest, escape_notMem_separators]

theorem escape_notMem_renderMembers (level : Nat) :
    ∀ ms : List (Text × Json), .escape ∉ renderMembers indented level ms
  | [] => by simp [renderMembers]
  | (k, j) :: ms => by
    have hkey : .escape ∉ quotedText indented.ascii k := escape_notMem_quotedText k
    have hfirst := escape_notMem_renderAt (level + 1) j
    have hrest := escape_notMem_renderMembers level ms
    simp [renderMembers, hkey, hfirst, hrest, escape_notMem_separators]

end

end Json

/-! ## Query strings -/

theorem Text.forall_mem_join {p : CodePoint → Prop} {separator : Text} {pieces : List Text}
    (hs : ∀ c ∈ separator, p c) (h : ∀ piece ∈ pieces, ∀ c ∈ piece, p c) :
    ∀ c ∈ join separator pieces, p c := by
  unfold join
  induction pieces with
  | nil => exact nofun
  | cons piece pieces ih =>
    obtain ⟨hpiece, hpieces⟩ := List.forall_mem_cons.1 h
    cases pieces with
    | nil =>
      rw [List.intercalate_singleton]
      exact hpiece
    | cons next pieces =>
      rw [List.intercalate_cons_cons]
      exact List.forall_mem_append.2 ⟨List.forall_mem_append.2 ⟨hpiece, hs⟩, ih hpieces⟩

namespace Form

theorem exists_octets_of_encodeText {t encoded : Text} (h : encodeText t = .ok encoded) :
    ∃ bs, encoded = encodeOctets bs := by
  obtain ⟨cs, -, h⟩ := bind_eq_ok h
  cases h
  exact ⟨_, rfl⟩

theorem exists_octets_of_encodeName {v : Value} {encoded : Text} (h : encodeName v = .ok encoded) :
    ∃ bs, encoded = encodeOctets bs := by
  unfold encodeName at h
  split at h
  · cases h
    exact ⟨_, rfl⟩
  · obtain ⟨t, -, h⟩ := bind_eq_ok h
    exact exists_octets_of_encodeText h

/-- What holds of all code points of encoded octets and of the separators holds of a query string. -/
theorem forall_mem_encode {p : CodePoint → Prop} (hoctets : ∀ bs, ∀ c ∈ encodeOctets bs, p c)
    (hequals : p (.scalar '=')) (hand : p (.scalar '&')) {fields : List (Value × Text)} {qs : Text}
    (h : encode fields = .ok qs) : ∀ c ∈ qs, p c := by
  obtain ⟨encoded, hencoded, h⟩ := bind_eq_ok h
  cases h
  refine Text.forall_mem_join (List.forall_mem_singleton.2 hand) ?_
  clear h
  induction fields generalizing encoded with
  | nil =>
    cases hencoded
    exact nofun
  | cons f fields ih =>
    rw [List.mapM_cons] at hencoded
    obtain ⟨piece, hpiece, hencoded⟩ := bind_eq_ok hencoded
    obtain ⟨pieces, hpieces, hencoded⟩ := bind_eq_ok hencoded
    cases hencoded
    obtain ⟨name, hname, hpiece⟩ := bind_eq_ok hpiece
    obtain ⟨value, hvalue, hpiece⟩ := bind_eq_ok hpiece
    cases hpiece
    obtain ⟨ns, rfl⟩ := exists_octets_of_encodeName hname
    obtain ⟨vs, rfl⟩ := exists_octets_of_encodeText hvalue
    refine List.forall_mem_cons.2 ⟨?_, ih pieces hpieces⟩
    exact List.forall_mem_append.2
      ⟨List.forall_mem_append.2 ⟨hoctets ns, List.forall_mem_singleton.2 hequals⟩, hoctets vs⟩

end Form

namespace Store

variable {s : Store} {qs : Text}

theorem isWellFormed_of_toQueryString (h : s.toQueryString = .ok qs) : qs.isWellFormed = true := by
  obtain ⟨fields, -, h⟩ := bind_eq_ok h
  exact Text.isWellFormed_iff.2 (Form.forall_mem_encode
    (fun _ => Text.isWellFormed_iff.1 (Text.isWellFormed_ofChars _)) rfl rfl h)

/-- A query string holds no escape character. -/
theorem escape_notMem_of_toQueryString (h : s.toQueryString = .ok qs) : .escape ∉ qs := by
  obtain ⟨fields, -, h⟩ := bind_eq_ok h
  have hall := Form.forall_mem_encode (p := fun c => c ≠ .escape)
    (fun bs c hc he => Form.notMem_encodeOctets (by decide) rfl (by decide) bs (he ▸ hc))
    (by decide) (by decide) h
  exact fun hmem => hall _ hmem rfl

end Store

end RowQuery
