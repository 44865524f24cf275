import Mathlib.Data.List.DropRight
import RowQuery.Proofs.Action
import RowQuery.Proofs.Text.Controls
import RowQuery.Proofs.Text.Pieces
import RowQuery.Url.ReadPath

/-!
# Read paths are unambiguous

The name of a table is written in letters, digits, four marks and escapes, and no query string holds a
question mark. So the only question mark of a path ends the name, and table and query string are told from
the path. A URL does not hang on how many slashes end its base.
-/

namespace RowQuery

open RowQuery.Action (effect)

set_option autoImplicit false

/-! ## Escaped text -/

namespace Percent

/-- A character that stands for itself. -/
def IsUnreserved (c : Char) : Prop := c.isAlphanum = true ∨ c ∈ ['_', '.', '-', '~']

def IsHexDigit (c : Char) : Prop := (CodePoint.hexValue? (.scalar c)).isSome = true

/-- A text of characters that stand for themselves, and of escapes. -/
inductive Escaped : List Char → Prop
  | nil : Escaped []
  | unreserved {c : Char} {cs : List Char} (hc : IsUnreserved c) (hcs : Escaped cs) : Escaped (c :: cs)
  | escape {a b : Char} {cs : List Char} (ha : IsHexDigit a) (hb : IsHexDigit b) (hcs : Escaped cs) :
      Escaped ('%' :: a :: b :: cs)

theorem isUnreserved_of_isPlain {b : UInt8} (h : isPlain b = true) :
    IsUnreserved (Char.ofNat b.toNat) := by
  simpa [isPlain, IsUnreserved, or_assoc] using (Bool.and_eq_true_iff.1 h).2

theorem isHexDigit_hexDigit {n : Nat} (h : n < 16) : IsHexDigit (hexDigit n) := by
  rw [IsHexDigit, hexValue_hexDigit n h]
  rfl

theorem escaped_encodeOctets (bs : List UInt8) : Escaped (encodeOctets bs) := by
  induction bs with
  | nil => exact .nil
  | cons b bs ih =>
    have hb := b.toNat_lt
    rw [encodeOctets, List.flatMap_cons]
    rcases encodeOctet_cases b with ⟨hplain, he⟩ | he <;> rw [he]
    · exact .unreserved (isUnreserved_of_isPlain hplain) ih
    · exact .escape (isHexDigit_hexDigit (by omega)) (isHexDigit_hexDigit (by omega)) ih

/-- A character that neither stands for itself nor is part of an escape. -/
theorem Escaped.notMem {cs : List Char} (h : Escaped cs) {c : Char} (hc : ¬ IsUnreserved c)
    (hhex : ¬ IsHexDigit c) (hsign : c ≠ '%') : c ∉ cs := by
  induction h with
  | nil => exact nofun
  | unreserved hd _ ih =>
    have hne : c ≠ _ := fun he => hc (he ▸ hd)
    simp [hne, ih]
  | escape ha hb _ ih =>
    have hne_a : c ≠ _ := fun he => hhex (he ▸ ha)
    have hne_b : c ≠ _ := fun he => hhex (he ▸ hb)
    simp [hsign, hne_a, hne_b, ih]

theorem decodeFrom_encodeOctets (pending : Option Utf8.Pending) (bs : List UInt8) :
    decodeFrom pending (Text.ofChars (encodeOctets bs)) =
      Text.ofChars (Utf8.feed pending bs).1 ++ Text.ofChars (Utf8.finish (Utf8.feed pending bs).2) := by
  induction bs generalizing pending with
  | nil => rfl
  | cons b bs ih =>
    have hcons : Text.ofChars (encodeOctets (b :: bs)) =
        Text.ofChars (encodeOctet b) ++ Text.ofChars (encodeOctets bs) := List.map_append
    rw [hcons, decodeFrom_encodeOctet, ih, Utf8.feed]
    simp [Text.ofChars]

/-- A text without lone surrogate halves is read back from its escaped form. -/
theorem exists_escaped {t : Text} (h : t.isWellFormed = true) :
    ∃ cs, encode t = .ok (Text.ofChars cs) ∧ Escaped cs ∧ decode (Text.ofChars cs) = t := by
  obtain ⟨cs, rfl⟩ := Form.exists_chars h
  refine ⟨encodeOctets (Utf8.encode cs), ?_, escaped_encodeOctets _, ?_⟩
  · unfold encode characters
    rw [Text.chars?_ofChars]
    rfl
  · have hread := decodeFrom_encodeOctets none (Utf8.encode cs)
    rw [Utf8.feed_encode] at hread
    exact hread.trans (List.append_nil _)

end Percent

namespace Store

theorem effect_rendered {s : Store} {qs : Text} (h : s.toQueryString = .ok qs) :
    effect Store.rendered s = (.ok qs, s) := by
  simp [Store.rendered, h, Except.mapError]

theorem mark_notMem_of_toQueryString {s : Store} {qs : Text} (h : s.toQueryString = .ok qs) :
    CodePoint.scalar '?' ∉ qs := by
  obtain ⟨fields, -, h⟩ := bind_eq_ok h
  have hall := Form.forall_mem_encode (p := fun c => c ≠ .scalar '?')
    (fun bs c hc he => Form.separator_notMem_encodeOctets (.inr (.inr rfl)) bs (he ▸ hc))
    (by decide) (by decide) h
  exact fun hmem => hall _ hmem rfl

end Store

/-! ## Ends of texts -/

theorem Text.dropEndWhile_eq_rdropWhile (p : CodePoint → Bool) (t : Text) :
    dropEndWhile p t = List.rdropWhile p t := by
  induction t with
  | nil => rfl
  | cons c t ih =>
    rw [dropEndWhile_cons, ih, List.rdropWhile, List.rdropWhile, List.reverse_cons,
      List.dropWhile_append, List.isEmpty_reverse]
    cases hc : p c <;> cases hrest : (t.reverse.dropWhile p).isEmpty <;> simp_all

/-- What is dropped at the end of a text is all that satisfies the condition there, and no more. -/
theorem Text.exists_eq_dropEndWhile_append (p : CodePoint → Bool) (t : Text) :
    ∃ dropped, t = dropEndWhile p t ++ dropped ∧ (∀ c ∈ dropped, p c = true) ∧
      ∀ c ∈ (dropEndWhile p t).getLast?, p c = false := by
  rw [dropEndWhile_eq_rdropWhile]
  refine ⟨t.rtakeWhile p, List.rdropWhile_append_rtakeWhile.symm, fun c hc => ?_, fun c hc => ?_⟩
  · exact List.mem_rtakeWhile_imp hc
  · obtain ⟨hne, rfl⟩ := List.mem_getLast?_eq_getLast hc
    simpa using List.rdropWhile_last_not p t hne

theorem Text.dropEndWhile_append {p : CodePoint → Bool} {t dropped : Text}
    (hlast : ∀ c ∈ t.getLast?, p c = false) (hdropped : ∀ c ∈ dropped, p c = true) :
    dropEndWhile p (t ++ dropped) = t := by
  have hkeep : List.rdropWhile p t = t := List.rdropWhile_eq_self_iff.2 fun hne => by
    simpa using hlast _ (List.getLast?_eq_getLast_of_ne_nil hne)
  rw [dropEndWhile_eq_rdropWhile, List.rdropWhile, List.reverse_append,
    List.dropWhile_append_of_pos (by simpa using hdropped)]
  exact hkeep

namespace ReadPath

/-! ## Paths -/

/-- A path of a table and a query string: the name of the table, escaped, and the query string after a
question mark, unless it is empty. -/
def IsPathOf (table queryString p : Text) : Prop :=
  ∃ cs, Percent.Escaped cs ∧ Percent.decode (Text.ofChars cs) = table ∧
    p = Text.ofString "t/" ++ Text.ofChars cs ++
      if queryString = [] then [] else .scalar '?' :: queryString

theorem mark_notMem_escaped {cs : List Char} (h : Percent.Escaped cs) :
    CodePoint.scalar '?' ∉ Text.ofString "t/" ++ Text.ofChars cs := by
  have hmark : ¬ Percent.IsUnreserved '?' ∧ ¬ Percent.IsHexDigit '?' := by
    unfold Percent.IsUnreserved Percent.IsHexDigit
    decide
  have hcs : '?' ∉ cs := h.notMem hmark.1 hmark.2 (by decide)
  intro hmem
  rcases List.mem_append.1 hmem with hmem | hmem
  · revert hmem
    decide
  · obtain ⟨c, hc, he⟩ := List.mem_map.1 hmem
    cases he
    exact hcs hc

section Marks

variable {table queryString p : Text} (hqs : CodePoint.scalar '?' ∉ queryString)
include hqs

/-- One question mark stands in front of a query string, and the path holds no other one. -/
theorem IsPathOf.count (h : IsPathOf table queryString p) :
    p.count (.scalar '?') = if queryString = [] then 0 else 1 := by
  obtain ⟨cs, hescaped, -, rfl⟩ := h
  rw [List.count_append, List.count_eq_zero.2 (mark_notMem_escaped hescaped), Nat.zero_add]
  split
  · rfl
  · rw [List.count_cons_self, List.count_eq_zero.2 hqs]

/-- A path has one question mark at most, which ends the table. -/
theorem split_path {cs : List Char} (h : Percent.Escaped cs) :
    Text.split (.scalar '?') (Text.ofString "t/" ++ Text.ofChars cs ++
        if queryString = [] then [] else .scalar '?' :: queryString) =
      (Text.ofString "t/" ++ Text.ofChars cs) :: if queryString = [] then [] else [queryString] := by
  have hname := mark_notMem_escaped h
  split
  · rw [List.append_nil, Text.split_self hname]
  · rw [Text.split_append hname, Text.split_self hqs]

/-- The table and the query string are told from the path. -/
theorem IsPathOf.unique {table' queryString' : Text} (hqs' : CodePoint.scalar '?' ∉ queryString')
    (h : IsPathOf table queryString p) (h' : IsPathOf table' queryString' p) :
    table = table' ∧ queryString = queryString' := by
  obtain ⟨cs, hescaped, rfl, rfl⟩ := h
  obtain ⟨cs', hescaped', rfl, hsame⟩ := h'
  have hpieces := congrArg (Text.split (.scalar '?')) hsame
  rw [split_path hqs hescaped, split_path hqs' hescaped', List.cons.injEq] at hpieces
  obtain ⟨hname, hrest⟩ := hpieces
  refine ⟨congrArg Percent.decode (List.append_cancel_left hname), ?_⟩
  split at hrest <;> split at hrest <;> simp_all

end Marks

theorem effect_path {table queryString : Text} (hne : table ≠ []) (hwell : table.isWellFormed = true)
    {s : Store} (hqs : s.toQueryString = .ok queryString) :
    ∃ p, IsPathOf table queryString p ∧ effect (path (.text table)) s = (.ok p, s) := by
  obtain ⟨cs, hencode, hescaped, hdecode⟩ := Percent.exists_escaped hwell
  have htruthy : (Value.text table).isTruthy = true := by simpa [Value.isTruthy] using hne
  have htable : encodeTable (.text table) = .ok (Text.ofChars cs) := by
    simp [encodeTable, Value.text?, hencode, Except.mapError]
  refine ⟨_, ⟨cs, hescaped, hdecode, rfl⟩, ?_⟩
  simp [path, htruthy, htable, Store.effect_rendered hqs, join]

/-! ## URLs -/

/-- Slashes at the end of a base URL make no difference. -/
theorem trimBase_append {stem : Text} (hlast : stem.getLast? ≠ some (.scalar '/')) (n : Nat) :
    trimBase (stem ++ List.replicate n (.scalar '/')) = stem := by
  refine Text.dropEndWhile_append (fun c hc => ?_) fun c hc => ?_
  · exact decide_eq_false fun he => hlast (he ▸ hc)
  · exact decide_eq_true (List.eq_of_mem_replicate hc)

/-- However many slashes follow it, a base that has a name before them is joined to the path by one. -/
theorem effect_url_base {stem : Text} (hne : stem ≠ []) (hlast : stem.getLast? ≠ some (.scalar '/'))
    (n : Nat) (settings : Settings) (table : Value) (s : Store) :
    effect (url settings table (.text (stem ++ List.replicate n (.scalar '/')))) s =
      ((effect (path (orElse table settings.defaultTable)) s).1.map fun p => stem ++ .scalar '/' :: p,
        (effect (path (orElse table settings.defaultTable)) s).2) := by
  have htruthy : (Value.text (stem ++ List.replicate n (.scalar '/'))).isTruthy = true := by
    simp [Value.isTruthy, hne]
  have hbase : checkBase (.text (stem ++ List.replicate n (.scalar '/'))) = .ok stem :=
    congrArg Except.ok (trimBase_append hlast n)
  have horElse : orElse (.text (stem ++ List.replicate n (.scalar '/'))) settings.baseUrl =
      .text (stem ++ List.replicate n (.scalar '/')) := if_pos htruthy
  rw [url, horElse, hbase, Action.effect_bind, Action.effect_lift, Action.andThen_ok,
    Action.effect_bind]
  rcases effect (path (orElse table settings.defaultTable)) s with ⟨_ | p, s'⟩ <;> rfl

/-- A table with a name and a query with a query string have a path: the table is escaped in it, and the
query string stands behind the only question mark, which is missing if there is nothing behind it. No other
table or query string has that path. In a URL one slash stands between the base and the path, however many
of them end the base. -/
theorem path_unambiguous {table : Text} (hne : table ≠ []) (hwell : table.isWellFormed = true)
    {s : Store} {queryString : Text} (hqs : s.toQueryString = .ok queryString) {base : Text}
    (hbase : ∃ c ∈ base, c ≠ .scalar '/') :
    ∃ p, effect (path (.text table)) s = (.ok p, s) ∧ IsPathOf table queryString p ∧
      p.count (.scalar '?') = (if queryString = [] then 0 else 1) ∧
      (∀ (table' : Text) (s' : Store) (queryString' : Text), table' ≠ [] →
        table'.isWellFormed = true → s'.toQueryString = .ok queryString' →
        effect (path (.text table')) s' = (.ok p, s') → table' = table ∧ queryString' = queryString) ∧
      ∃ stem n, base = stem ++ List.replicate n (.scalar '/') ∧ stem ≠ [] ∧
        stem.getLast? ≠ some (.scalar '/') ∧
        ∀ (m : Nat) (settings : Settings) (table : Value) (s : Store),
          effect (url settings table (.text (stem ++ List.replicate m (.scalar '/')))) s =
            ((effect (path (orElse table settings.defaultTable)) s).1.map
                fun p => stem ++ .scalar '/' :: p,
              (effect (path (orElse table settings.defaultTable)) s).2) := by
  have hmark := Store.mark_notMem_of_toQueryString hqs
  obtain ⟨p, hpath, heffect⟩ := effect_path hne hwell hqs
  obtain ⟨dropped, hsplit, hdropped, hlast⟩ :=
    Text.exists_eq_dropEndWhile_append (fun c => decide (c = .scalar '/')) base
  have hslashes : dropped = List.replicate dropped.length (.scalar '/') :=
    List.eq_replicate_iff.2 ⟨rfl, fun c hc => of_decide_eq_true (hdropped c hc)⟩
  have hlast : (trimBase base).getLast? ≠ some (.scalar '/') := fun he => by
    simpa using hlast _ he
  have hstem : trimBase base ≠ [] := by
    intro he
    obtain ⟨c, hc, hslash⟩ := hbase
    have hall : base = dropped := hsplit.trans (congrArg (· ++ dropped) he)
    exact hslash (of_decide_eq_true (hdropped c (hall ▸ hc)))
  refine ⟨p, heffect, hpath, hpath.count hmark, fun table' s' qs' hne' hwell' hqs' heffect' => ?_,
    trimBase base, dropped.length, hslashes ▸ hsplit, hstem, hlast, effect_url_base hstem hlast⟩
  obtain ⟨p', hpath', heq⟩ := effect_path hne' hwell' hqs'
  cases (Prod.mk.inj (heffect'.symm.trans heq)).1
  exact hpath'.unique (Store.mark_notMem_of_toQueryString hqs') hmark hpath

/-- A table whose name holds what ends a path, a fragment mark and letters outside ASCII. -/
def hostileTable : Text := "a/b?c#d&é %"

/-- A query for a term with a question mark in it. -/
def searched : Store := ⟨Parameter.filters.name, [(.text "q", .scalar (.text "x?y"))]⟩

/-- The path names the table without its separators, and slashes after the base make no difference. -/
theorem path_unambiguous_hostileTable :
    ∃ p, p = Text.ofString "t/a%2Fb%3Fc%23d%26%C3%A9%20%25?q=x%3Fy" ∧
      effect (path (.text hostileTable)) searched = (.ok p, searched) ∧
      IsPathOf hostileTable "q=x%3Fy" p ∧ p.count (.scalar '?') = 1 ∧
      ∀ m settings, effect (url settings (.text hostileTable)
          (.text (Text.ofString "https://h/v" ++ List.replicate m (.scalar '/')))) searched =
        (.ok (Text.ofString "https://h/v/" ++ p), searched) := by
  have hbase : ∃ c ∈ Text.ofString "https://h/v//", c ≠ .scalar '/' :=
    ⟨.scalar 'h', by decide, by decide⟩
  have hqs : searched.toQueryString = .ok "q=x%3Fy" := by rfl
  have hwell : hostileTable.isWellFormed = true := by decide
  obtain ⟨p, heffect, hpath, hcount, -, stem, n, hstem, -, hlast, hurl⟩ :=
    path_unambiguous (by decide) hwell hqs hbase
  have hp : effect (path (.text hostileTable)) searched =
      (.ok (Text.ofString "t/a%2Fb%3Fc%23d%26%C3%A9%20%25?q=x%3Fy"), searched) := by rfl
  cases heffect.symm.trans hp
  have htrim : trimBase (Text.ofString "https://h/v//") = stem := by rw [hstem, trimBase_append hlast]
  obtain rfl : stem = Text.ofString "https://h/v" := htrim.symm.trans rfl
  refine ⟨_, rfl, heffect, hpath, hcount, fun m settings => ?_⟩
  have htable : orElse (.text hostileTable) settings.defaultTable = .text hostileTable := rfl
  rw [hurl, htable, heffect]
  rfl

end ReadPath

end RowQuery
