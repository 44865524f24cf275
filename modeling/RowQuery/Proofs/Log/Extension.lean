import RowQuery.Log.Template
import RowQuery.Proofs.Fallible

/-!
# Templates with a text behind them

A text behind a template is read as a template too. Where the values fit the template in front, its directives
end before the text starts, and the text gets what is left of the values. Main statements: a text without a
percent sign stands as it is, and where values are taken in order, no other text does.
-/

namespace RowQuery.Template

set_option autoImplicit false

/-! ## Reading a directive -/

/-- A reader of the start of a text: unless it gets to the end, it makes no difference what follows. -/
structure IsLocal {α : Type} (read : Text → α × Text) : Prop where
  suffix : ∀ t, (read t).2 <:+ t
  append : ∀ t u, (read t).2 ≠ [] → read (t ++ u) = ((read t).1, (read t).2 ++ u)

namespace IsLocal

variable {α : Type} {read : Text → α × Text}

theorem ne_nil (h : IsLocal read) {t : Text} (ht : (read t).2 ≠ []) : t ≠ [] := by
  rintro rfl
  exact ht (List.suffix_nil.1 (h.suffix []))

/-- Of two readers in a row the second one gets what the first one leaves. -/
theorem bind {β : Type} {next : α → Text → β × Text} (h : IsLocal read) (hnext : ∀ a, IsLocal (next a)) :
    IsLocal fun t => next (read t).1 (read t).2 where
  suffix t := ((hnext _).suffix _).trans (h.suffix t)
  append t u ht := by
    rw [h.append t u ((hnext _).ne_nil ht)]
    exact (hnext _).append _ u ht

end IsLocal

/-- A key that is closed is not changed by what follows. -/
def IsClosed (depth : Nat) (t : Text) : Prop :=
  ∀ p, readKey depth t = some p → p.2 <:+ t ∧ ∀ u, readKey depth (t ++ u) = some (p.1, p.2 ++ u)

theorem IsClosed.cons {depth inner : Nat} {c : CodePoint} {t : Text} (h : IsClosed inner t)
    (hstep : ∀ u, readKey depth (c :: u) = (readKey inner u).map fun p => (c :: p.1, p.2)) :
    IsClosed depth (c :: t) := by
  intro p hp
  rw [hstep] at hp
  obtain ⟨q, hq, rfl⟩ := Option.map_eq_some_iff.1 hp
  obtain ⟨hsuffix, happend⟩ := h q hq
  refine ⟨hsuffix.trans (List.suffix_cons _ _), fun u => ?_⟩
  rw [List.cons_append, hstep, happend u, Option.map_some]

/-- A key that finds its closing parenthesis is not changed by what follows. -/
theorem isClosed (depth : Nat) (t : Text) : IsClosed depth t := by
  induction depth, t using readKey.induct with
  | case1 => exact nofun
  | case2 t =>
    rintro _ ⟨⟩
    exact ⟨List.suffix_cons _ _, fun _ => rfl⟩
  | case3 depth t hdepth ih => exact ih.cons fun u => by rw [readKey, if_neg hdepth]
  | case4 depth t ih => exact ih.cons fun u => by rw [readKey]
  | case5 depth c t hclose hopen ih => exact ih.cons fun u => by rw [readKey] <;> assumption

theorem isLocal_readParenthesis : IsLocal readParenthesis where
  suffix t := by
    unfold readParenthesis
    split
    · next inner =>
      split
      · next hkey => exact (isClosed _ _ _ hkey).1.trans (List.suffix_cons _ _)
      · exact List.nil_suffix
    · exact List.suffix_rfl
  append t u ht := by
    unfold readParenthesis at ht ⊢
    split at ht
    · next inner =>
      split at ht
      · next hkey => simp [(isClosed _ _ _ hkey).2 u]
      · exact absurd rfl ht
    · next hopen =>
      cases t with
      | nil => exact absurd rfl ht
      | cons c t =>
        split
        · next heq =>
          cases heq
          exact absurd rfl (hopen t)
        · rfl

theorem dropWhile_append {p : CodePoint → Bool} {t : Text} (ht : t.dropWhile p ≠ []) (u : Text) :
    (t ++ u).takeWhile p = t.takeWhile p ∧ (t ++ u).dropWhile p = t.dropWhile p ++ u := by
  have hlength : (t.takeWhile p).length ≠ t.length := by
    intro he
    have hall := congrArg List.length (List.takeWhile_append_dropWhile (p := p) (l := t))
    rw [List.length_append] at hall
    exact ht (List.eq_nil_of_length_eq_zero (by omega))
  rw [List.takeWhile_append, List.dropWhile_append, if_neg hlength, if_neg (by simpa using ht)]
  exact ⟨rfl, rfl⟩

theorem isLocal_readFlags : IsLocal readFlags where
  suffix t := List.dropWhile_suffix isFlag
  append t u ht := by
    obtain ⟨htake, hdrop⟩ := dropWhile_append ht u
    unfold readFlags
    rw [htake, hdrop]

theorem isLocal_readAmount : IsLocal readAmount where
  suffix t := by
    unfold readAmount
    split
    · exact List.suffix_cons _ _
    · exact List.dropWhile_suffix isDigit
  append t u ht := by
    unfold readAmount at ht ⊢
    split at ht
    · rfl
    · next hstar =>
      obtain ⟨htake, hdrop⟩ := dropWhile_append ht u
      cases t with
      | nil => exact absurd rfl ht
      | cons c t =>
        split
        · next heq =>
          cases heq
          exact absurd rfl (hstar t)
        · simp only [htake, hdrop]

theorem isLocal_readPrecision : IsLocal readPrecision where
  suffix t := by
    unfold readPrecision
    split
    · exact (isLocal_readAmount.suffix _).trans (List.suffix_cons _ _)
    · exact List.suffix_rfl
  append t u ht := by
    unfold readPrecision at ht ⊢
    split at ht
    · simp [isLocal_readAmount.append _ u ht]
    · next hpoint =>
      cases t with
      | nil => exact absurd rfl ht
      | cons c t =>
        split
        · next heq =>
          cases heq
          exact absurd rfl (hpoint t)
        · rfl

theorem isLocal_dropSize {α : Type} (a : α) : IsLocal fun t => (a, dropSize t) where
  suffix t := by
    change dropSize t <:+ t
    unfold dropSize
    split
    · exact List.suffix_cons _ _
    · exact List.suffix_cons _ _
    · exact List.suffix_cons _ _
    · exact List.suffix_rfl
  append t u ht := by
    refine congrArg (Prod.mk a) ?_
    change dropSize t ≠ [] at ht
    unfold dropSize at ht ⊢
    split at ht
    · rfl
    · rfl
    · rfl
    · next hshort hlong hlonger =>
      cases t with
      | nil => exact absurd rfl ht
      | cons c t =>
        split
        · next heq =>
          cases heq
          exact absurd rfl (hshort t)
        · next heq =>
          cases heq
          exact absurd rfl (hlong t)
        · next heq =>
          cases heq
          exact absurd rfl (hlonger t)
        · rfl

/-- A directive up to its letter: key, flags, width and precision. -/
def readParts (t : Text) : (Option (Option Text) × List Char × Option Amount × Option Amount) × Text :=
  let key := readParenthesis t
  let flags := readFlags key.2
  let width := readAmount flags.2
  let precision := readPrecision width.2
  ((key.1, flags.1, width.1, precision.1), dropSize precision.2)

/-- The parts of a directive depend on nothing behind its letter. -/
theorem isLocal_readParts : IsLocal readParts := by
  have hsize := fun (key : Option (Option Text)) (flags : List Char) (width precision : Option Amount) =>
    isLocal_dropSize (key, flags, width, precision)
  have hprecision := fun key flags width => isLocal_readPrecision.bind (hsize key flags width)
  have hwidth := fun key flags => isLocal_readAmount.bind (hprecision key flags)
  have hflags := fun key => isLocal_readFlags.bind (hwidth key)
  exact isLocal_readParenthesis.bind hflags

/-- A directive that has its letter is not changed by what follows. -/
theorem readDirective_append {start : Nat} {t : Text}
    (h : (readDirective start t).1.conversion.isSome = true) :
    (readDirective start t).2.length < t.length ∧ ∀ u,
      readDirective start (t ++ u) = ((readDirective start t).1, (readDirective start t).2 ++ u) := by
  obtain ⟨c, last, hlast⟩ : ∃ c last, (readParts t).2 = c :: last := by
    have hsome : (readParts t).2.head?.isSome = true := h
    cases hparts : (readParts t).2 with
    | nil =>
      rw [hparts] at hsome
      cases hsome
    | cons c last => exact ⟨c, last, rfl⟩
  have hlength : last.length < t.length := by
    have hsuffix := (isLocal_readParts.suffix t).length_le
    rw [hlast] at hsuffix
    exact hsuffix
  have hread : ∀ t, readDirective start t = (⟨(readParts t).1.1, (readParts t).1.2.1, (readParts t).1.2.2.1,
      (readParts t).1.2.2.2, (readParts t).2.head?, start + (t.length - ((readParts t).2.drop 1).length)⟩,
        (readParts t).2.drop 1) := fun _ => rfl
  refine ⟨?_, fun u => ?_⟩
  · rw [hread, hlast]
    exact hlength
  · have happend := isLocal_readParts.append t u (hlast ▸ List.cons_ne_nil _ _)
    rw [hread, hread, happend, hlast]
    simp
    omega

/-! ## Pieces -/

/-- Every directive among the pieces has its letter. -/
def Complete (ps : List Piece) : Prop := ∀ d, .directive d ∈ ps → d.conversion.isSome = true

theorem Complete.tail {p : Piece} {ps : List Piece} (h : Complete (p :: ps)) : Complete ps :=
  fun d hd => h d (List.mem_cons_of_mem _ hd)

theorem pieces_percent {t : Text} (h : t.head? = some (.scalar '%')) (index : Nat) :
    pieces index 0 (.scalar '%' :: t) = .literal (.scalar '%') :: pieces (index + 1) 1 t := by
  rw [pieces, if_pos h]

/-- A directive is one piece, and reading goes on behind it. -/
theorem pieces_directive {t : Text} (h : t.head? ≠ some (.scalar '%')) {index : Nat} {d : Directive}
    {rest : Text} (hread : readDirective (index + 1) t = (d, rest)) :
    pieces index 0 (.scalar '%' :: t) = .directive d :: pieces (index + 1) (t.length - rest.length) t := by
  rw [pieces, if_neg h, hread]

theorem pieces_literal {c : CodePoint} (h : c ≠ .scalar '%') (index : Nat) (t : Text) :
    pieces index 0 (c :: t) = .literal c :: pieces (index + 1) 0 t := by
  rw [pieces]
  exact h

/-- Complete pieces end before what follows. -/
theorem pieces_append {index skip : Nat} {t : Text} (hskip : skip ≤ t.length)
    (h : Complete (pieces index skip t)) (u : Text) :
    pieces index skip (t ++ u) = pieces index skip t ++ pieces (index + t.length) 0 u := by
  induction index, skip, t using pieces.induct with
  | case1 index skip =>
    obtain rfl : skip = 0 := Nat.le_zero.1 hskip
    rfl
  | case2 index skip c t ih =>
    rw [pieces] at h
    rw [List.cons_append, pieces, pieces, ih (Nat.le_of_succ_le_succ hskip) h, List.length_cons,
      Nat.add_right_comm, Nat.add_assoc]
  | case3 index t hpercent ih =>
    rw [pieces_percent hpercent] at h ⊢
    have hhead : (t ++ u).head? = some (.scalar '%') := by rw [List.head?_append, hpercent, Option.some_or]
    have hlength : 1 ≤ t.length := List.length_pos_iff.2 fun hnil => by simp [hnil] at hpercent
    rw [List.cons_append, pieces_percent hhead, ih hlength h.tail, List.length_cons, Nat.add_right_comm,
      Nat.add_assoc, List.cons_append]
  | case4 index t hpercent d rest hread ih =>
    rw [pieces_directive hpercent hread] at h ⊢
    have hletter : (readDirective (index + 1) t).1.conversion.isSome = true := by
      rw [hread]
      exact h d List.mem_cons_self
    obtain ⟨hlength, happend⟩ := readDirective_append hletter
    have happend := happend u
    rw [hread] at hlength happend
    have hhead : (t ++ u).head? ≠ some (.scalar '%') := by
      cases t with
      | nil => cases hlength
      | cons => exact hpercent
    -- How much a directive takes up is counted from the end of the template, which moves by `u`.
    have hskipped : (t ++ u).length - (rest ++ u).length = t.length - rest.length := by
      simp only [List.length_append]
      omega
    rw [List.cons_append, pieces_directive hhead happend, hskipped, ih (Nat.sub_le _ _) h.tail,
      List.length_cons, Nat.add_right_comm, Nat.add_assoc, List.cons_append]
  | case5 index c t hpercent ih =>
    rw [pieces_literal hpercent] at h ⊢
    rw [List.cons_append, pieces_literal hpercent, ih (Nat.zero_le _) h.tail, List.length_cons,
      Nat.add_right_comm, Nat.add_assoc, List.cons_append]

/-! ## Filling in -/

namespace Supply

theorem access_next {s s' : Supply} {v : Value} (h : s.next = .ok (v, s')) : s'.access = s.access := by
  unfold next at h
  split at h <;> cases h
  rfl

theorem access_choose {s s' : Supply} {key : Option Text} (h : s.choose key = .ok s') :
    s'.access = s.access := by
  unfold choose at h
  split at h
  · cases h
  · cases h
  · cases h
  · split at h <;> cases h
    rfl

theorem access_amount {s s' : Supply} {part : AmountPart} {a : Option Amount} {n : Option Int}
    (h : s.amount part a = .ok (n, s')) : s'.access = s.access := by
  unfold amount at h
  split at h
  · cases h
    rfl
  · split at h <;> cases h
    rfl
  · obtain ⟨⟨v, left⟩, hnext, h⟩ := bind_eq_ok h
    dsimp only at h
    split at h
    · split at h <;> cases h
      exact access_next hnext
    · cases h

end Supply

/-- What replacing a directive takes: the value of its key, its amounts, its letter and a value. -/
theorem exists_of_expand {d : Directive} {s s' : Supply} {t : Text} (h : expand d s = .ok (t, s')) :
    ∃ chosen width widened precision left v, d.key.elim (.ok s) s.choose = .ok chosen ∧
      chosen.amount .width d.width = .ok (width, widened) ∧
      widened.amount .precision d.precision = .ok (precision, left) ∧ d.conversion.isSome = true ∧
      left.next = .ok (v, s') := by
  obtain ⟨chosen, hchosen, h⟩ := bind_eq_ok h
  obtain ⟨⟨width, widened⟩, hwidth, h⟩ := bind_eq_ok h
  obtain ⟨⟨precision, left⟩, hprecision, h⟩ := bind_eq_ok h
  dsimp only at h
  split at h
  · cases h
  · next c hletter =>
    obtain ⟨⟨v, rest⟩, hnext, h⟩ := bind_eq_ok h
    obtain ⟨text, -, h⟩ := bind_eq_ok h
    cases h
    exact ⟨chosen, width, widened, precision, left, v, hchosen, hwidth, hprecision, hletter ▸ rfl, hnext⟩

/-- The values that a directive leaves are reached in the same way. -/
theorem access_expand {d : Directive} {s s' : Supply} {t : Text} (h : expand d s = .ok (t, s')) :
    s'.access = s.access := by
  obtain ⟨chosen, width, widened, precision, left, v, hchosen, hwidth, hprecision, -, hnext⟩ := exists_of_expand h
  rw [Supply.access_next hnext, Supply.access_amount hprecision, Supply.access_amount hwidth]
  cases hkey : d.key with
  | none =>
    rw [hkey] at hchosen
    cases hchosen
    rfl
  | some key =>
    rw [hkey] at hchosen
    exact Supply.access_choose hchosen

/-- Where the values fit, the pieces are complete, and what follows them gets what they leave of the
values. -/
theorem fill_append {ps : List Piece} {s : Supply} {m : Text} (h : fill ps s = .ok m) :
    Complete ps ∧ ∃ left : Supply, left.mayEnd = true ∧ left.access = s.access ∧
      ∀ qs, fill (ps ++ qs) s = (fill qs left).map (m ++ ·) := by
  induction ps generalizing s m with
  | nil =>
    rw [fill] at h
    split at h
    · next hend =>
      cases h
      exact ⟨nofun, s, hend, rfl, fun qs => by cases h : fill qs s <;> simp [h, Except.map]⟩
    · cases h
  | cons p ps ih =>
    cases p with
    | literal c =>
      rw [fill] at h
      obtain ⟨m, hm, rfl⟩ := map_eq_ok h
      obtain ⟨hcomplete, left, hend, haccess, happend⟩ := ih hm
      refine ⟨fun d hd => hcomplete d ?_, left, hend, haccess, fun qs => ?_⟩
      · simpa using hd
      · rw [List.cons_append, fill, happend qs]
        cases fill qs left <;> rfl
    | directive d =>
      rw [fill] at h
      obtain ⟨⟨t, s'⟩, hexpand, h⟩ := bind_eq_ok h
      obtain ⟨m, hm, h⟩ := bind_eq_ok h
      cases h
      obtain ⟨-, -, -, -, -, -, -, -, -, hletter, -⟩ := exists_of_expand hexpand
      obtain ⟨hcomplete, left, hend, haccess, happend⟩ := ih hm
      refine ⟨?_, left, hend, haccess.trans (access_expand hexpand), fun qs => ?_⟩
      · intro d' hd'
        rcases List.mem_cons.1 hd' with heq | hd'
        · cases heq
          exact hletter
        · exact hcomplete d' hd'
      · have hrest : fill (.directive d :: (ps ++ qs)) s =
            (fill (ps ++ qs) s').map (t ++ ·) := by
          rw [fill, hexpand]
          rfl
        rw [List.cons_append, hrest, happend qs]
        cases fill qs left <;> simp [Except.map]

/-- A text behind a template is a template for what is left of the values. -/
theorem interpolate_append {t m : Text} {values : Value} (h : interpolate t values = .ok m) (u : Text) :
    ∃ left : Supply, left.mayEnd = true ∧ left.access = (Supply.ofValue values).access ∧
      interpolate (t ++ u) values = (fill (pieces t.length 0 u) left).map (m ++ ·) := by
  obtain ⟨hcomplete, left, hend, haccess, happend⟩ := fill_append h
  refine ⟨left, hend, haccess, ?_⟩
  rw [interpolate, pieces_append (Nat.zero_le _) hcomplete, happend, Nat.zero_add]

/-! ## Texts without directives -/

/-- A text without percent signs is filled in as it stands, where the values may end. -/
theorem fill_pieces_literal {u : Text} (h : .scalar '%' ∉ u) (index : Nat) {s : Supply}
    (hs : s.mayEnd = true) : fill (pieces index 0 u) s = .ok u := by
  induction u generalizing index with
  | nil => exact if_pos hs
  | cons c u ih =>
    obtain ⟨hc, hu⟩ := List.ne_and_not_mem_of_not_mem_cons h
    rw [pieces_literal hc.symm, fill, ih hu]
    rfl

/-- Where no value is left, an amount cannot be taken from the values. -/
theorem Supply.left_amount {s s' : Supply} {part : AmountPart} {a : Option Amount} {n : Option Int}
    (h : s.amount part a = .ok (n, s')) (hs : s.left = []) : s'.left = [] := by
  unfold amount at h
  split at h
  · cases h
    exact hs
  · split at h <;> cases h
    exact hs
  · obtain ⟨p, hnext, -⟩ := bind_eq_ok h
    rw [next, hs] at hnext
    cases hnext

/-- Where no value is left, a directive fails. -/
theorem expand_spent (d : Directive) : ∃ e, expand d ⟨[], .inOrder⟩ = .error e := by
  cases h : expand d ⟨[], .inOrder⟩ with
  | error e => exact ⟨e, rfl⟩
  | ok p =>
    obtain ⟨chosen, _, _, _, left, _, hchosen, hwidth, hprecision, -, hnext⟩ := exists_of_expand h
    have hnone : chosen.left = [] := by
      cases hkey : d.key with
      | none =>
        rw [hkey] at hchosen
        cases hchosen
        rfl
      | some key =>
        rw [hkey] at hchosen
        cases hchosen
    rw [Supply.next, Supply.left_amount hprecision (Supply.left_amount hwidth hnone)] at hnext
    cases hnext

/-- Where no value is left, a text with a percent sign fails, or a percent sign of it is lost. -/
theorem fill_pieces_spent {index skip : Nat} {u w : Text}
    (h : fill (pieces index skip u) ⟨[], .inOrder⟩ = .ok w) :
    w.length ≤ (u.drop skip).length ∧ (.scalar '%' ∈ u.drop skip → w.length < (u.drop skip).length) := by
  induction index, skip, u using pieces.induct generalizing w with
  | case1 index skip =>
    cases h
    simp
  | case2 index skip c u ih => exact ih h
  | case3 index u hpercent ih =>
    -- Two percent signs are replaced by one.
    rw [pieces_percent hpercent, fill] at h
    obtain ⟨w, hw, rfl⟩ := map_eq_ok h
    have hlength := (ih hw).1
    have hne : 1 ≤ u.length := List.length_pos_iff.2 fun hnil => by simp [hnil] at hpercent
    simp only [List.length_drop, List.length_cons] at hlength ⊢
    omega
  | case4 index u hpercent d rest hread ih =>
    obtain ⟨e, he⟩ := expand_spent d
    rw [pieces_directive hpercent hread, fill, he] at h
    cases h
  | case5 index c u hpercent ih =>
    rw [pieces_literal hpercent, fill] at h
    obtain ⟨w, hw, rfl⟩ := map_eq_ok h
    obtain ⟨hle, hlt⟩ := ih hw
    rw [List.drop_zero] at hle hlt ⊢
    refine ⟨Nat.succ_le_succ hle, fun hmem => Nat.succ_lt_succ (hlt ?_)⟩
    exact (List.mem_cons.1 hmem).resolve_left fun heq => hpercent heq.symm

/-! ## A text as it is -/

/-- A text without a percent sign stands behind the message as it is. -/
theorem interpolate_literal {t m u : Text} {values : Value} (h : interpolate t values = .ok m)
    (hu : .scalar '%' ∉ u) : interpolate (t ++ u) values = .ok (m ++ u) := by
  obtain ⟨left, hend, -, happend⟩ := interpolate_append h u
  rw [happend, fill_pieces_literal hu _ hend]
  rfl

/-- Where values are taken in order, a text with a percent sign fails behind the message, or a percent sign of
it is lost. -/
theorem interpolate_percent {t m u : Text} {values : Value} (h : interpolate t values = .ok m)
    (hvalues : (Supply.ofValue values).access = .inOrder) (hu : .scalar '%' ∈ u) :
    (∃ e, interpolate (t ++ u) values = .error e) ∨
      ∃ w, w.length < u.length ∧ interpolate (t ++ u) values = .ok (m ++ w) := by
  obtain ⟨⟨left, access⟩, hend, haccess, happend⟩ := interpolate_append h u
  obtain rfl : access = .inOrder := haccess.trans hvalues
  obtain rfl : left = [] := List.isEmpty_iff.1 hend
  rw [happend]
  cases hw : fill (pieces t.length 0 u) ⟨[], .inOrder⟩ with
  | error e => exact .inl ⟨e, rfl⟩
  | ok w => exact .inr ⟨w, (fill_pieces_spent hw).2 hu, rfl⟩

end RowQuery.Template
