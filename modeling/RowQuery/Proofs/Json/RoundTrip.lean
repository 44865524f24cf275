import RowQuery.Proofs.Json.Numbers
import RowQuery.Proofs.Json.Settling
import RowQuery.Proofs.Json.Strings

/-!
# JSON text read back

Data whose integers have a text is read back from its text in any layout on one line, with its strings as they
are read and its repeated keys settled. On the wire settled data is read as it is. The induction is on the
data; what follows a number in the text must not continue it, and the fuel is twice the length of the text.
-/

namespace RowQuery.Json

set_option autoImplicit false

/-! ## Scalars -/

theorem start_of_readWhole {t : Text} {p : List Char × Text} (h : readWhole t = some p) :
    ∃ c u, t = c :: u ∧ isDigit c = true := by
  unfold readWhole at h
  split at h
  · exact ⟨_, _, rfl, rfl⟩
  · cases t with
    | nil => cases h
    | cons c u =>
      cases hc : isDigit c with
      | true => exact ⟨c, u, rfl, hc⟩
      | false =>
        have hspan : spanDigits (c :: u) = ([], c :: u) :=
          spanDigits_append allDigits_nil (stopsDigits_cons hc u)
        rw [hspan] at h
        cases h

/-- A number starts with a digit, which a minus sign may precede. -/
theorem start_of_readNumber {t : Text} {p : Json × Text} (h : readNumber t = .ok p) :
    ∃ c u, isDigit c = true ∧ (t = c :: u ∨ t = .scalar '-' :: c :: u) := by
  unfold readNumber at h
  split at h
  next negative unsigned heq =>
    split at h
    · cases h
    · next whole rest hw =>
      obtain ⟨c, u, rfl, hc⟩ := start_of_readWhole hw
      refine ⟨c, u, hc, ?_⟩
      split at heq
      · cases heq
        exact .inr rfl
      · cases heq
        exact .inl rfl

theorem ne_of_isDigit {c : CodePoint} (hc : isDigit c = true) {d : Char} (hd : d.isDigit = false) :
    c ≠ .scalar d := by
  rintro rfl
  cases hd.symm.trans hc

theorem readScalar_of_readNumber {t : Text} {p : Json × Text} (h : readNumber t = .ok p) :
    readScalar t = .ok p := by
  obtain ⟨c, u, hc, ht⟩ := start_of_readNumber h
  have hne : ∀ d : Char, d.isDigit = false → .scalar d ≠ c := fun d hd => (ne_of_isDigit hc hd).symm
  have hwords : words.find? (fun w => t.startsWith w.1) = none := by
    rcases ht with rfl | rfl <;>
      simp [words, Text.startsWith, Text.ofString, Text.ofChars, hne]
  unfold readScalar
  rw [hwords]
  exact h

theorem readValue_of_readNumber {t : Text} {p : Json × Text} (h : readNumber t = .ok p)
    (fuel : Nat) : readValue (fuel + 1) t = .ok p := by
  rw [← readScalar_of_readNumber h]
  obtain ⟨c, u, hc, ht⟩ := start_of_readNumber h
  have hne : ∀ d : Char, d.isDigit = false → c ≠ .scalar d := fun d hd => ne_of_isDigit hc hd
  rcases ht with rfl | rfl
  · rw [readValue]
    all_goals simp [hne]
  · rw [readValue]
    all_goals simp

theorem readValue_null (fuel : Nat) (rest : Text) :
    readValue (fuel + 1) (Text.ofString "null" ++ rest) = .ok (null, rest) := by
  rfl

theorem readValue_bool (b : Bool) (fuel : Nat) (rest : Text) :
    readValue (fuel + 1) (Text.ofString (if b then "true" else "false") ++ rest) =
      .ok (bool b, rest) := by
  cases b <;> rfl

/-- A double precision number is read back, from a word if it is no finite one. A NaN that is read
stands at no other place. -/
theorem readValue_floatText (x : Binary64) {rest : Text} (hr : Stops rest) (fuel : Nat) :
    readValue (fuel + 1) (floatText x ++ rest) = .ok (float x.anonymous, rest) := by
  cases x with
  | undefined => rfl
  | infinite negative => cases negative <;> rfl
  | finite negative rank => exact readValue_of_readNumber (readNumber_floatText rfl hr) fuel

/-! ## What is read -/

/-- The text that a string is read as. -/
def readBackText (ascii : Bool) (t : Text) : Text := if ascii then t.paired else t

mutual

/-- The data that is read from the text of data: a repeated key has its first place and its last data. -/
def readBack (ascii : Bool) : Json → Json
  | float x => float x.anonymous
  | text t => text (readBackText ascii t)
  | array js => array (readBackItems ascii js)
  | object ms => object (settle (readBackMembers ascii ms))
  | j => j

def readBackItems (ascii : Bool) : List Json → List Json
  | [] => []
  | j :: js => readBack ascii j :: readBackItems ascii js

def readBackMembers (ascii : Bool) : List (Text × Json) → List (Text × Json)
  | [] => []
  | (k, j) :: ms => (readBackText ascii k, readBack ascii j) :: readBackMembers ascii ms

end

/-- The body of a string is read up to its closing quote. -/
theorem readString_body (ascii : Bool) (opening : Nat) (t rest : Text) :
    readString opening none (t.flatMap (escaped ascii) ++ .scalar '"' :: rest) =
      .ok (readBackText ascii t, rest) := by
  cases ascii with
  | false => exact readString_quotedText opening t rest
  | true => exact readString_ascii opening t rest

theorem quotedText_append (ascii : Bool) (k rest : Text) :
    quotedText ascii k ++ rest =
      .scalar '"' :: (k.flatMap (escaped ascii) ++ .scalar '"' :: rest) := by
  simp [quotedText]

theorem readValue_text (ascii : Bool) (t : Text) (fuel : Nat) (rest : Text) :
    readValue (fuel + 1) (quotedText ascii t ++ rest) = .ok (text (readBackText ascii t), rest) := by
  rw [quotedText_append, readValue, readString_body]
  rfl

theorem insertMember_new {kept : List (Text × Json)} {k : Text} (hk : ∀ m ∈ kept, m.1 ≠ k)
    (j : Json) : insertMember kept k j = kept ++ [(k, j)] := by
  induction kept with
  | nil => rfl
  | cons m kept ih =>
    rw [insertMember, if_neg (hk m List.mem_cons_self),
      ih fun n hn => hk n (List.mem_cons_of_mem _ hn), List.cons_append]

/-- Members without a repeated key stay as they are. -/
theorem settle_of_nodup {ms : List (Text × Json)} (h : (ms.map Prod.fst).Nodup) : settle ms = ms := by
  have hfold : ∀ kept : List (Text × Json), (∀ m ∈ kept, ∀ n ∈ ms, m.1 ≠ n.1) →
      ms.foldl (fun settled m => insertMember settled m.1 m.2) kept = kept ++ ms := by
    -- The members that are kept so far share no key with those to come.
    induction ms with
    | nil => exact fun kept _ => (List.append_nil kept).symm
    | cons m ms ih =>
      intro kept hk
      obtain ⟨hm, hms⟩ := List.nodup_cons.1 h
      rw [List.foldl_cons, insertMember_new (fun n hn => hk n hn _ List.mem_cons_self), ih hms,
        List.append_assoc, List.singleton_append]
      intro n hn o ho
      rcases List.mem_append.1 hn with hn | hn
      · exact hk n hn o (List.mem_cons_of_mem _ ho)
      · rw [List.mem_singleton.1 hn]
        exact fun he => hm (he ▸ List.mem_map_of_mem ho)
  exact hfold [] nofun

theorem nodup_of_settled {ms : List (Text × Json)} (h : SettledMembers ms) : (ms.map Prod.fst).Nodup := by
  induction ms with
  | nil => exact .nil
  | cons m ms ih =>
    obtain ⟨hm, -, hms⟩ := h
    refine List.nodup_cons.2 ⟨fun hmem => ?_, ih hms⟩
    obtain ⟨n, hn, he⟩ := List.mem_map.1 hmem
    exact hm n hn he

/-- Without repeated keys the members are kept as they are. -/
theorem settle_eq {ms : List (Text × Json)} (h : SettledMembers ms) : settle ms = ms :=
  settle_of_nodup (nodup_of_settled h)

/-- The atom is read as it is. -/
def ReadsBack (ascii : Bool) : Json → Prop
  | float x => x.anonymous = x
  | text t => readBackText ascii t = t
  | _ => True

mutual

/-- Settled data is read as it is, if its atoms are. -/
theorem readBack_eq {ascii : Bool} : ∀ j : Json, j.Settled → j.Every (ReadsBack ascii) → j.readBack ascii = j
  | null, _, _ | bool _, _, _ | int _, _, _ => rfl
  | float _, _, h => congrArg float h
  | text _, _, h => congrArg text h
  | array js, hs, h => congrArg array (readBackItems_eq js hs h)
  | object ms, hs, h => by rw [readBack, readBackMembers_eq ms hs h, settle_eq hs]

theorem readBackItems_eq {ascii : Bool} : ∀ js : List Json, SettledItems js →
    EveryItem (ReadsBack ascii) js → readBackItems ascii js = js
  | [], _, _ => rfl
  | j :: js, hs, h => by rw [readBackItems, readBack_eq j hs.1 h.1, readBackItems_eq js hs.2 h.2]

theorem readBackMembers_eq {ascii : Bool} : ∀ ms : List (Text × Json), SettledMembers ms →
    EveryMember (ReadsBack ascii) ms → readBackMembers ascii ms = ms
  | [], _, _ => rfl
  | (k, j) :: ms, hs, h => by
    have hk : readBackText ascii k = k := h.1
    rw [readBackMembers, hk, readBack_eq j hs.2.1 h.2.1, readBackMembers_eq ms hs.2.2 h.2.2]

end

/-- On the wire every string and every finite number is read as it is. -/
theorem readsBack_wire : ∀ j : Json, j.Writable → j.ReadsBack false
  | null, _ | bool _, _ | int _, _ | array _, _ | object _, _ => trivial
  | float (.finite ..), _ => rfl
  | text _, _ => rfl

/-! ## Starts of texts -/

/-- A text that starts data: it neither starts with a blank nor ends an array. -/
def Opens (t : Text) : Prop :=
  ∃ c u, t = c :: u ∧ isBlank c = false ∧ c ≠ .scalar ']' ∧ c ≠ .scalar '\uFEFF'

theorem opens_of_readNumber {t : Text} {p : Json × Text} (h : readNumber t = .ok p) : Opens t := by
  obtain ⟨c, u, hc, rfl | rfl⟩ := start_of_readNumber h
  · have hne : ∀ d : Char, d.isDigit = false → c ≠ .scalar d := fun d hd => ne_of_isDigit hc hd
    refine ⟨c, u, rfl, ?_, hne _ rfl, hne _ rfl⟩
    simp [isBlank, hne]
  · exact ⟨_, _, rfl, rfl, by decide, by decide⟩

theorem stops_nil : Stops [] := ⟨nofun, nofun, nofun, nofun⟩

theorem opens_floatText (x : Binary64) : Opens (floatText x) := by
  cases x with
  | undefined => exact ⟨_, _, rfl, rfl, by decide, by decide⟩
  | infinite negative => cases negative <;> exact ⟨_, _, rfl, rfl, by decide, by decide⟩
  | finite negative rank =>
    have hread := readNumber_floatText (x := .finite negative rank) rfl stops_nil
    rw [List.append_nil] at hread
    exact opens_of_readNumber hread

/-- The text of data starts neither with a blank nor with the end of an array. -/
theorem opens_renderAt (layout : Layout) (level : Nat) : ∀ j : Json, j.Every Short →
    Opens (renderAt layout level j)
  | null, _ => ⟨_, _, rfl, rfl, by decide, by decide⟩
  | bool true, _ => ⟨_, _, rfl, rfl, by decide, by decide⟩
  | bool false, _ => ⟨_, _, rfl, rfl, by decide, by decide⟩
  | text _, _ => ⟨_, _, rfl, rfl, by decide, by decide⟩
  | array [], _ => ⟨_, _, rfl, rfl, by decide, by decide⟩
  | array (_ :: _), _ => ⟨_, _, rfl, rfl, by decide, by decide⟩
  | object [], _ => ⟨_, _, rfl, rfl, by decide, by decide⟩
  | object ((_, _) :: _), _ => ⟨_, _, rfl, rfl, by decide, by decide⟩
  | int n, h => by
    have hread := readNumber_ofInt h stops_nil
    rw [List.append_nil] at hread
    exact opens_of_readNumber hread
  | float x, _ => opens_floatText x

theorem Opens.skipBlanks {t : Text} (h : Opens t) (rest : Text) :
    skipBlanks (t ++ rest) = t ++ rest := by
  obtain ⟨c, u, rfl, hc, -, -⟩ := h
  exact List.dropWhile_cons_of_neg (by simp [hc])

theorem skipBlanks_append {a : Text} (ha : ∀ c ∈ a, isBlank c = true) (t : Text) :
    skipBlanks (a ++ t) = skipBlanks t :=
  List.dropWhile_append_of_pos ha

theorem skipBlanks_quotedText (ascii : Bool) (k rest : Text) :
    skipBlanks (quotedText ascii k ++ rest) = quotedText ascii k ++ rest := by
  rw [quotedText_append]
  rfl

/-- What follows data does not continue a number. -/
theorem stops_cons {c : Char} (hd : isDigit (.scalar c) = false)
    (hc : c ≠ '.' ∧ c ≠ 'e' ∧ c ≠ 'E') (t : Text) :
    Stops (.scalar c :: t) :=
  ⟨stopsDigits_cons hd t, by simpa using hc.1, by simpa using hc.2.1, by simpa using hc.2.2⟩

/-! ## Arrays and objects -/

/-- A layout on one line: blanks may stand behind commas and colons, and nowhere else. -/
structure Layout.IsInline (layout : Layout) (a b : Text) : Prop where
  comma : layout.comma = .scalar ',' :: a
  colon : layout.colon = .scalar ':' :: b
  indent : layout.indent = none
  blankComma : ∀ c ∈ a, isBlank c = true
  blankColon : ∀ c ∈ b, isBlank c = true

theorem isInline_wire : wire.IsInline [] [] := ⟨rfl, rfl, rfl, nofun, nofun⟩

theorem isInline_record : record.IsInline [.scalar ' '] [.scalar ' '] :=
  ⟨rfl, rfl, rfl, by decide, by decide⟩

theorem readItems_last {fuel : Nat} {t rest : Text} {j : Json}
    (h : readValue fuel t = .ok (j, .scalar ']' :: rest)) :
    readItems (fuel + 1) t = .ok ([j], rest) := by
  rw [readItems, h]
  rfl

theorem readItems_more {fuel : Nat} {t rest : Text} {j : Json}
    (h : readValue fuel t = .ok (j, .scalar ',' :: rest)) :
    readItems (fuel + 1) t = (readItems fuel (skipBlanks rest)).map fun p => (j :: p.1, p.2) := by
  rw [readItems, h]
  rfl

theorem readMembers_last {ascii : Bool} {fuel : Nat} {k t rest : Text} {j : Json}
    (h : readValue fuel (skipBlanks t) = .ok (j, .scalar '}' :: rest)) :
    readMembers (fuel + 1) (quotedText ascii k ++ .scalar ':' :: t) =
      .ok ([(readBackText ascii k, j)], rest) := by
  have hcolon : skipBlanks (.scalar ':' :: t) = .scalar ':' :: t := rfl
  rw [quotedText_append, readMembers, readString_body]
  simp only [hcolon, h]
  rfl

theorem readMembers_more (ascii : Bool) (k : Text) {fuel : Nat} {t rest : Text} {j : Json}
    (h : readValue fuel (skipBlanks t) = .ok (j, .scalar ',' :: rest)) :
    readMembers (fuel + 1) (quotedText ascii k ++ .scalar ':' :: t) =
      (readMembers fuel (skipBlanks rest)).map fun p => ((readBackText ascii k, j) :: p.1, p.2) := by
  have hcolon : skipBlanks (.scalar ':' :: t) = .scalar ':' :: t := rfl
  rw [quotedText_append, readMembers, readString_body]
  simp only [hcolon, h]
  rfl

theorem readValue_array {fuel : Nat} {t rest : Text} {js : List Json} (ht : Opens t)
    {after : Text} (h : readItems fuel (t ++ after) = .ok (js, rest)) :
    readValue (fuel + 1) (.scalar '[' :: (t ++ after)) = .ok (array js, rest) := by
  rw [readValue, ht.skipBlanks]
  split
  · next heq =>
    obtain ⟨c, u, rfl, -, hc, -⟩ := ht
    cases heq
    exact absurd rfl hc
  · rw [h]
    rfl

theorem readValue_object {ascii : Bool} {fuel : Nat} {k t rest : Text} {ms : List (Text × Json)}
    (h : readMembers fuel (quotedText ascii k ++ t) = .ok (ms, rest)) :
    readValue (fuel + 1) (.scalar '{' :: (quotedText ascii k ++ t)) =
      .ok (object (settle ms), rest) := by
  rw [readValue, skipBlanks_quotedText]
  split
  · next heq =>
    rw [quotedText_append] at heq
    cases heq
  · rw [h]
    rfl

/-- The reader gives data back from its text, whatever follows that does not continue it. -/
def IsRead (layout : Layout) (j : Json) : Prop :=
  ∀ (level fuel : Nat) (rest : Text), Stops rest → 2 * (renderAt layout level j).length ≤ fuel →
    readValue fuel (renderAt layout level j ++ rest) = .ok (j.readBack layout.ascii, rest)

/-- The reader gives back the elements of an array from the first of them on. -/
def AreRead (layout : Layout) (j : Json) (js : List Json) : Prop :=
  ∀ (level fuel : Nat) (rest : Text),
    2 * ((renderAt layout (level + 1) j).length + (renderItems layout level js).length) ≤ fuel →
      readItems fuel (renderAt layout (level + 1) j ++ (renderItems layout level js ++ rest)) =
        .ok (j.readBack layout.ascii :: readBackItems layout.ascii js, rest)

/-- The reader gives back the members of an object from the first of them on. -/
def AreReadMembers (layout : Layout) (k : Text) (j : Json) (ms : List (Text × Json)) : Prop :=
  ∀ (level fuel : Nat) (rest : Text),
    2 * ((quotedText layout.ascii k).length + 1 + (renderAt layout (level + 1) j).length +
      (renderMembers layout level ms).length) ≤ fuel →
      readMembers fuel (quotedText layout.ascii k ++ (layout.colon ++ (renderAt layout (level + 1) j ++
        (renderMembers layout level ms ++ rest)))) =
          .ok (readBackMembers layout.ascii ((k, j) :: ms), rest)

namespace Layout.IsInline

variable {layout : Layout} {a b : Text} (hl : layout.IsInline a b)
include hl

theorem gap (level : Nat) : layout.gap level = [] := by
  unfold Layout.gap
  rw [hl.indent]

theorem renderItems_nil (level : Nat) : renderItems layout level [] = [.scalar ']'] := by
  rw [renderItems, hl.gap, List.nil_append]

theorem renderItems_cons (level : Nat) (j : Json) (js : List Json) :
    renderItems layout level (j :: js) =
      .scalar ',' :: (a ++ (renderAt layout (level + 1) j ++ renderItems layout level js)) := by
  simp only [renderItems, hl.gap, hl.comma, List.append_nil, List.append_assoc, List.cons_append]

theorem renderMembers_nil (level : Nat) : renderMembers layout level [] = [.scalar '}'] := by
  rw [renderMembers, hl.gap, List.nil_append]

theorem renderMembers_cons (level : Nat) (k : Text) (j : Json) (ms : List (Text × Json)) :
    renderMembers layout level ((k, j) :: ms) =
      .scalar ',' :: (a ++ (quotedText layout.ascii k ++ (layout.colon ++
        (renderAt layout (level + 1) j ++ renderMembers layout level ms)))) := by
  simp only [renderMembers, hl.gap, hl.comma, List.append_nil, List.append_assoc, List.cons_append]

theorem renderAt_array (level : Nat) (j : Json) (js : List Json) :
    renderAt layout level (array (j :: js)) =
      .scalar '[' :: (renderAt layout (level + 1) j ++ renderItems layout level js) := by
  simp only [renderAt, hl.gap, List.nil_append, List.cons_append]

theorem renderAt_object (level : Nat) (k : Text) (j : Json) (ms : List (Text × Json)) :
    renderAt layout level (object ((k, j) :: ms)) =
      .scalar '{' :: (quotedText layout.ascii k ++ (layout.colon ++
        (renderAt layout (level + 1) j ++ renderMembers layout level ms))) := by
  simp only [renderAt, hl.gap, List.nil_append, List.append_assoc, List.cons_append]

/-- Data behind a colon and its blanks. -/
theorem readValue_colon {j : Json} (hw : j.Every Short) (hj : j.IsRead layout) {level fuel : Nat} {rest : Text}
    (hr : Stops rest) (hfuel : 2 * (renderAt layout level j).length ≤ fuel) :
    readValue fuel (skipBlanks (b ++ (renderAt layout level j ++ rest))) =
      .ok (j.readBack layout.ascii, rest) := by
  rw [skipBlanks_append hl.blankColon, (opens_renderAt layout level j hw).skipBlanks]
  exact hj level fuel rest hr hfuel

theorem areRead_nil {j : Json} (hj : j.IsRead layout) : AreRead layout j [] := by
  intro level fuel rest hfuel
  cases fuel with
  | zero => simp [hl.renderItems_nil] at hfuel
  | succ fuel =>
    rw [hl.renderItems_nil, List.length_singleton] at hfuel
    have hread := hj (level + 1) fuel (.scalar ']' :: rest) (stops_cons rfl (by decide) rest)
      (by omega)
    rw [hl.renderItems_nil]
    exact readItems_last hread

/-- An element more in front of elements that are read back. -/
theorem areRead_cons {j i : Json} {js : List Json} (hj : j.IsRead layout) (hi : i.Every Short)
    (hjs : AreRead layout i js) : AreRead layout j (i :: js) := by
  intro level fuel rest hfuel
  cases fuel with
  | zero => simp [hl.renderItems_cons] at hfuel
  | succ fuel =>
    rw [hl.renderItems_cons, List.length_cons, List.length_append, List.length_append] at hfuel
    have hread := hj (level + 1) fuel
      (.scalar ',' :: (a ++ (renderAt layout (level + 1) i ++ (renderItems layout level js ++ rest))))
      (stops_cons rfl (by decide) _) (by omega)
    rw [hl.renderItems_cons, List.cons_append, List.append_assoc, List.append_assoc, readItems_more hread,
      skipBlanks_append hl.blankComma, (opens_renderAt layout (level + 1) i hi).skipBlanks,
      hjs level fuel rest (by omega)]
    rfl

theorem areReadMembers_nil {k : Text} {j : Json} (hw : j.Every Short) (hj : j.IsRead layout) :
    AreReadMembers layout k j [] := by
  intro level fuel rest hfuel
  cases fuel with
  | zero => simp [hl.renderMembers_nil] at hfuel
  | succ fuel =>
    rw [hl.renderMembers_nil, List.length_singleton] at hfuel
    have hread := hl.readValue_colon hw hj (stops_cons rfl (by decide) rest : Stops (.scalar '}' :: rest))
      (show 2 * (renderAt layout (level + 1) j).length ≤ fuel by omega)
    rw [hl.renderMembers_nil, hl.colon]
    exact readMembers_last hread

/-- A member more in front of members that are read back. -/
theorem areReadMembers_cons {k l : Text} {j i : Json} {ms : List (Text × Json)}
    (hw : j.Every Short) (hj : j.IsRead layout) (hms : AreReadMembers layout l i ms) :
    AreReadMembers layout k j ((l, i) :: ms) := by
  intro level fuel rest hfuel
  cases fuel with
  | zero => omega
  | succ fuel =>
    rw [hl.renderMembers_cons] at hfuel ⊢
    simp only [List.length_cons, List.length_append, hl.colon] at hfuel
    simp only [List.cons_append, List.append_assoc]
    have hread := hl.readValue_colon hw hj (stops_cons rfl (by decide) _ : Stops (.scalar ',' :: (a ++
        (quotedText layout.ascii l ++ (layout.colon ++ (renderAt layout (level + 1) i ++
          (renderMembers layout level ms ++ rest)))))))
      (show 2 * (renderAt layout (level + 1) j).length ≤ fuel by omega)
    have hmore := readMembers_more layout.ascii k hread
    rw [← List.cons_append, ← hl.colon, skipBlanks_append hl.blankComma, skipBlanks_quotedText,
      hms level fuel rest (by omega)] at hmore
    exact hmore

/-- An array is read back when its elements are. -/
theorem isRead_array {j : Json} {js : List Json} (hw : j.Every Short) (hjs : AreRead layout j js) :
    IsRead layout (array (j :: js)) := by
  intro level fuel rest _ hfuel
  cases fuel with
  | zero => simp [hl.renderAt_array] at hfuel
  | succ fuel =>
    rw [hl.renderAt_array] at hfuel ⊢
    simp only [List.length_cons, List.length_append] at hfuel
    rw [List.cons_append, List.append_assoc]
    exact readValue_array (opens_renderAt layout (level + 1) j hw) (hjs level fuel rest (by omega))

/-- An object is read back when its members are. -/
theorem isRead_object {k : Text} {j : Json} {ms : List (Text × Json)} (hms : AreReadMembers layout k j ms) :
    IsRead layout (object ((k, j) :: ms)) := by
  intro level fuel rest _ hfuel
  cases fuel with
  | zero => simp [hl.renderAt_object] at hfuel
  | succ fuel =>
    rw [hl.renderAt_object] at hfuel ⊢
    simp only [List.length_cons, List.length_append, hl.colon] at hfuel
    have hread := hms level fuel rest (by omega)
    rw [List.cons_append, List.append_assoc, List.append_assoc, List.append_assoc]
    exact readValue_object hread

omit hl in
/-- A scalar is read back wherever it stands. -/
theorem isRead_scalar {j : Json} (hopens : ∀ level, Opens (renderAt layout level j))
    (h : ∀ level fuel rest, Stops rest →
      readValue (fuel + 1) (renderAt layout level j ++ rest) = .ok (j.readBack layout.ascii, rest)) :
    IsRead layout j := by
  intro level fuel rest hr hfuel
  cases fuel with
  | zero =>
    -- No scalar has an empty text, so there is always fuel for one.
    obtain ⟨c, u, ht, -⟩ := hopens level
    rw [ht, List.length_cons] at hfuel
    omega
  | succ fuel => exact h level fuel rest hr

mutual

/-- Data is read back from its text. -/
theorem isRead : ∀ j : Json, j.Every Short → j.IsRead layout
  | null, h => isRead_scalar (fun level => opens_renderAt layout level _ h) fun _ fuel rest _ =>
    readValue_null fuel rest
  | bool b, h => isRead_scalar (fun level => opens_renderAt layout level _ h) fun _ fuel rest _ =>
    readValue_bool b fuel rest
  | int _, h => isRead_scalar (fun level => opens_renderAt layout level _ h) fun _ fuel _ hr =>
    readValue_of_readNumber (readNumber_ofInt h hr) fuel
  | float x, h => isRead_scalar (fun level => opens_renderAt layout level _ h) fun _ fuel _ hr =>
    readValue_floatText x hr fuel
  | text t, h => isRead_scalar (fun level => opens_renderAt layout level _ h) fun _ fuel rest _ =>
    readValue_text layout.ascii t fuel rest
  | array [], h => isRead_scalar (fun level => opens_renderAt layout level _ h) fun _ _ _ _ => rfl
  | object [], h => isRead_scalar (fun level => opens_renderAt layout level _ h) fun _ _ _ _ => rfl
  | array (j :: js), h => hl.isRead_array h.1 (areRead j js (isRead j h.1) h.2)
  | object ((k, j) :: ms), h =>
    hl.isRead_object (areReadMembers k j ms h.2.1 (isRead j h.2.1) h.2.2)

theorem areRead : ∀ (j : Json) (js : List Json), j.IsRead layout → EveryItem Short js → AreRead layout j js
  | _, [], hj, _ => hl.areRead_nil hj
  | _, i :: js, hj, h => hl.areRead_cons hj h.1 (areRead i js (isRead i h.1) h.2)

theorem areReadMembers : ∀ (k : Text) (j : Json) (ms : List (Text × Json)), j.Every Short →
    j.IsRead layout → EveryMember Short ms → AreReadMembers layout k j ms
  | _, _, [], hw, hj, _ => hl.areReadMembers_nil hw hj
  | _, _, (l, i) :: ms, hw, hj, h =>
    hl.areReadMembers_cons hw hj (areReadMembers l i ms h.2.1 (isRead i h.2.1) h.2.2)

end

/-- Data whose integers have a text is read from its text. -/
theorem read_render {j : Json} (h : j.Every Short) : read (render layout j) = .ok (j.readBack layout.ascii) := by
  have hopens := opens_renderAt layout 0 j h
  have hread := hl.isRead j h 0 (2 * (renderAt layout 0 j).length + 1) [] stops_nil (by omega)
  have hskip := hopens.skipBlanks []
  rw [List.append_nil] at hread hskip
  have hbom : (renderAt layout 0 j).head? ≠ some (CodePoint.ofNat 0xFEFF) := by
    obtain ⟨c, u, ht, -, -, hc⟩ := hopens
    rw [ht]
    exact fun h => hc (Option.some.inj h)
  have hall : readAll (render layout j) = .ok (j.readBack layout.ascii) := by
    unfold readAll render
    rw [if_neg hbom, hskip, hread]
    rfl
  unfold read
  rw [hall]

end Layout.IsInline

/-- Settled data whose numbers have a text is read back from its text on the wire. -/
theorem read_render {j : Json} (hs : j.Settled) (hw : j.Every Writable) :
    read (render wire j) = .ok j := by
  rw [isInline_wire.read_render (Every.imp (fun _ h => h.1) j hw)]
  exact congrArg Except.ok (readBack_eq j hs (Every.imp readsBack_wire j hw))

/-! ## Values -/

theorem intText_of_short {n : Int} (h : Short (int n)) : intText n = .ok (Text.ofInt n) :=
  if_neg (Nat.not_lt.2 h)

mutual

/-- Whatever else has a JSON form, writable data is the form of its value. -/
theorem ofValue_toValue (rules : Leniency) : ∀ j : Json, j.Every Writable →
    ofValue rules j.toValue = .ok j
  | null, _ | bool _, _ | text _, _ => rfl
  | int n, h => by
    rw [toValue, ofValue, intText_of_short h.1]
    rfl
  | float x, h => by
    rw [toValue, ofValue]
    exact if_pos (by rw [show x.isFinite = true from h.2, Bool.or_true])
  | array js, h => by
    rw [toValue, ofValue, ofValues_toValues rules js h]
    rfl
  | object ms, h => by
    rw [toValue, ofValue, ofMembers_toMembers rules ms h]
    rfl

theorem ofValues_toValues (rules : Leniency) : ∀ js : List Json, EveryItem Writable js →
    ofValues rules (toValues js) = .ok js
  | [], _ => rfl
  | j :: js, h => by
    rw [toValues, ofValues, ofValue_toValue rules j h.1, ofValues_toValues rules js h.2]
    rfl

theorem ofMembers_toMembers (rules : Leniency) : ∀ ms : List (Text × Json), EveryMember Writable ms →
    ofMembers rules (toMembers ms) = .ok ms
  | [], _ => rfl
  | (k, j) :: ms, h => by
    rw [toMembers, ofMembers, ofValue_toValue rules j h.2.1, ofMembers_toMembers rules ms h.2.2]
    rfl

end

/-- An integer that has a text has not too many digits. -/
theorem short_of_intText {n : Int} {t : Text} (h : intText n = .ok t) : Short (int n) := by
  unfold intText at h
  split at h
  · cases h
  · next hn => exact Nat.not_lt.1 hn

mutual

/-- Whatever has a JSON form, the integers in the form have a text. -/
theorem short_ofValue {rules : Leniency} : ∀ (v : Value) (j : Json), ofValue rules v = .ok j → j.Every Short
  | .null, _, h | .bool _, _, h | .text _, _, h | .word _, _, h => by
    cases h
    trivial
  | .int n, _, h => by
    obtain ⟨t, ht, he⟩ := bind_eq_ok h
    cases he
    exact short_of_intText ht
  | .float x, _, h => by
    rw [ofValue] at h
    split at h <;> cases h
    trivial
  | .list items, _, h | .tuple items, _, h => by
    obtain ⟨js, hjs, he⟩ := bind_eq_ok h
    cases he
    exact short_ofValues items js hjs
  | .mapping members, _, h => by
    obtain ⟨ms, hms, he⟩ := bind_eq_ok h
    cases he
    exact short_ofMembers members ms hms
  | .octets _, _, h | .set _, _, h | .filter _, _, h | .circle _, _, h | .rectangle _, _, h | .query _, _, h
  | .store .., _, h => by
    rw [ofValue] at h
    · split at h
      · obtain ⟨t, -, he⟩ := map_eq_ok h
        cases he
        trivial
      · cases h
    all_goals exact nofun

theorem short_ofValues {rules : Leniency} : ∀ (vs : List Value) (js : List Json),
    ofValues rules vs = .ok js → EveryItem Short js
  | [], _, h => by
    cases h
    trivial
  | v :: vs, _, h => by
    obtain ⟨j, hj, h⟩ := bind_eq_ok h
    obtain ⟨js, hjs, he⟩ := bind_eq_ok h
    cases he
    exact ⟨short_ofValue v j hj, short_ofValues vs js hjs⟩

theorem short_ofMembers {rules : Leniency} : ∀ (members : List (Value × Value)) (ms : List (Text × Json)),
    ofMembers rules members = .ok ms → EveryMember Short ms
  | [], _, h => by
    cases h
    trivial
  | (k, v) :: members, _, h => by
    obtain ⟨t, -, h⟩ := bind_eq_ok h
    obtain ⟨j, hj, h⟩ := bind_eq_ok h
    obtain ⟨ms, hms, he⟩ := bind_eq_ok h
    cases he
    exact ⟨trivial, short_ofValue v j hj, short_ofMembers members ms hms⟩

end

/-- The compact text of the value of data is the text of the data. -/
theorem toJsonText_toValue {j : Json} (h : j.Every Writable) :
    j.toValue.toJsonText = .ok (render wire j) := by
  unfold Value.toJsonText
  rw [ofValue_toValue strict j h]
  rfl

end RowQuery.Json
