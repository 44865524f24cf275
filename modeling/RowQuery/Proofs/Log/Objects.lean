import RowQuery.Proofs.Json.Ascii
import RowQuery.Proofs.Log.Context
import RowQuery.Proofs.Text.WellFormed
import RowQuery.Proofs.Value.Inspection

/-!
# Records as objects

A record is one object for machines, on one line. Main statement: the line is printable ASCII whatever the
attributes of the record hold, and it is read as the object of the record or, if that has no JSON form, as the
fallback. Two surrogate halves that stand side by side as a pair are read as one code point.
-/

namespace RowQuery

open RowQuery.Action (effect)

set_option autoImplicit false

/-! ## Texts without pairs -/

namespace Text

/-- There are no pairs of halves where there are no halves. -/
theorem not_hasPair_of_isWellFormed {t : Text} (h : t.isWellFormed = true) : ¬ t.HasPair := by
  rintro ⟨before, high, low, after, rfl, hhigh, -⟩
  have hscalar : high.isScalar = true := isWellFormed_iff.1 h high (by simp)
  cases high with
  | lone half => cases hscalar
  | scalar c =>
    have hvalid := c.valid
    unfold UInt32.isValidChar Nat.isValidChar at hvalid
    refine (Json.not_isHalf (c := .scalar c) ?_).1 hhigh
    change c.val.toNat < 0xD800 ∨ 0xDFFF < c.val.toNat
    omega

theorem paired_ofString (s : String) : (ofString s).paired = ofString s :=
  paired_eq_self (not_hasPair_of_isWellFormed (isWellFormed_ofString s))

end Text

namespace Json

/-- The atom is told from every other one when it is read: a string has no surrogate halves that stand side by
side as a pair, and a number is no NaN that stands at another place too. -/
def Legible : Json → Prop
  | float x => x.anonymous = x
  | text t => ¬ t.HasPair
  | _ => True

theorem Legible.readsBack {j : Json} (h : j.Legible) : j.ReadsBack true := by
  cases j with
  | text t => exact Text.paired_eq_self h
  | float x => exact h
  | _ => trivial

/-- What is read for data that was written in ASCII: the data with its pairs joined, hence the data itself where
its atoms are legible. -/
def IsReadAs (j i : Json) : Prop := i = j.readBack true ∧ (j.Every Legible → i = j)

theorem isReadAs_of_settled {j : Json} (h : j.Settled) : j.IsReadAs (j.readBack true) :=
  ⟨rfl, fun hj => readBack_eq j h (Every.imp (fun _ => Legible.readsBack) j hj)⟩

/-- The value is that of data without repeated keys whose numbers have a text. -/
def IsPlain (v : Value) : Prop := ∃ j : Json, j.Settled ∧ j.Every Writable ∧ j.toValue = v

theorem isPlain_text (t : Text) : IsPlain (.text t) := ⟨.text t, trivial, ⟨trivial, trivial⟩, rfl⟩

theorem isPlain_null : IsPlain .null := ⟨.null, trivial, ⟨trivial, trivial⟩, rfl⟩

end Json

/-! ## Named members -/

namespace Value

/-- Members under names. -/
def named (members : List (String × Value)) : List (Value × Value) :=
  members.map fun p => (.ofString p.1, p.2)

def names (members : List (String × Value)) : List Text := (members.map Prod.fst).map Text.ofString

end Value

namespace Json

open Value (named names)

/-- The names are the keys of the object. -/
theorem keys_ofMembers {rules : Leniency} {members : List (String × Value)} {ms : List (Text × Json)}
    (h : ofMembers rules (named members) = .ok ms) : ms.map Prod.fst = names members := by
  induction members generalizing ms with
  | nil =>
    cases h
    rfl
  | cons p members ih =>
    obtain ⟨key, hkey, h⟩ := bind_eq_ok h
    obtain ⟨j, -, h⟩ := bind_eq_ok h
    obtain ⟨rest, hrest, he⟩ := bind_eq_ok h
    cases hkey
    cases he
    exact congrArg _ (ih hrest)

theorem keys_readBackMembers (ascii : Bool) (ms : List (Text × Json)) :
    (readBackMembers ascii ms).map Prod.fst = (ms.map Prod.fst).map (readBackText ascii) := by
  induction ms with
  | nil => rfl
  | cons m ms ih => exact congrArg _ ih

/-- An object with names for keys is read with the same keys, if none of them is repeated. -/
theorem readBack_object {keys : List String} (hkeys : (keys.map Text.ofString).Nodup)
    {ms : List (Text × Json)} (h : ms.map Prod.fst = keys.map Text.ofString) :
    ∃ is, (object ms).readBack true = object is ∧ is.map Prod.fst = keys.map Text.ofString := by
  have hread : (readBackMembers true ms).map Prod.fst = keys.map Text.ofString := by
    rw [keys_readBackMembers, h, List.map_map]
    exact List.map_congr_left fun key _ => Text.paired_ofString key
  refine ⟨readBackMembers true ms, ?_, hread⟩
  rw [readBack, settle_of_nodup (hread ▸ hkeys)]

/-- Plain values under names of which none is repeated are the members of an object. -/
theorem exists_members_of_plain {members : List (String × Value)} (hnames : (names members).Nodup)
    (h : ∀ p ∈ members, IsPlain p.2) : ∃ ms, SettledMembers ms ∧ EveryMember Writable ms ∧
      toMembers ms = named members ∧ ms.map Prod.fst = names members := by
  induction members with
  | nil => exact ⟨[], trivial, trivial, rfl, rfl⟩
  | cons p members ih =>
    obtain ⟨⟨j, hj, hwrite, hvalue⟩, hmembers⟩ := List.forall_mem_cons.1 h
    obtain ⟨hnew, hnames⟩ := List.nodup_cons.1 hnames
    obtain ⟨ms, hs, hw, hmembers, hkeys⟩ := ih hnames hmembers
    have hkey : ∀ m ∈ ms, m.1 ≠ Text.ofString p.1 := fun m hm he =>
      hnew (show Text.ofString p.1 ∈ names members from hkeys ▸ he ▸ List.mem_map_of_mem hm)
    have hvalues : toMembers ((Text.ofString p.1, j) :: ms) = named (p :: members) := by
      rw [toMembers, hvalue, hmembers]
      rfl
    exact ⟨(Text.ofString p.1, j) :: ms, ⟨hkey, hj, hs⟩, ⟨⟨trivial, trivial⟩, hwrite, hw⟩, hvalues,
      congrArg _ hkeys⟩

/-- Members with plain values under distinct names make a plain mapping. -/
theorem isPlain_named {members : List (String × Value)} (hnames : (names members).Nodup)
    (h : ∀ p ∈ members, IsPlain p.2) : IsPlain (.mapping (named members)) := by
  obtain ⟨ms, hs, hw, hvalue, -⟩ := exists_members_of_plain hnames h
  exact ⟨.object ms, hs, hw, congrArg Value.mapping hvalue⟩

end Json

/-! ## The object of a record -/

namespace Record

/-- The attributes that are shown, where the record has them. -/
def shown (r : Record) : List (String × Value) :=
  Formatter.shownAttributes.filterMap fun name =>
    (r.attribute? (Text.ofString name)).map fun v => (name, v)

/-- What the object says of a handled error. -/
def handledObject (kind message : Value) (report : Text) : List (String × Value) :=
  [("exception", .mapping (Value.named [("type", kind), ("message", message), ("traceback", .text report)]))]

/-- What the object says of the error that was being handled, if any. -/
def handledNames (r : Record) : List (String × Value) :=
  match r.handled with
  | .missing => handledObject .null .null missingReport
  | .error kind (.ok message) report => handledObject (.text kind) (message.elim .null .text) report
  | .error _ (.error _) _ | .none | .parts _ => []

/-- The message of the handled error, if there is one, is a text. -/
def ErrorHasText (r : Record) : Prop := ∀ kind e report, r.handled ≠ .error kind (.error e) report

/-- The object of a record: four members of its own, the attributes that are shown, and the error. -/
def object (r : Record) (time message : Text) : List (String × Value) :=
  [("timestamp", .text time), ("level", r.levelName), ("logger", r.logger), ("message", .text message)] ++
    r.shown ++ r.handledNames

def objectNames : List String :=
  ["timestamp", "level", "logger", "message"] ++ Formatter.shownAttributes ++ ["exception"]

theorem names_shown (r : Record) : (r.shown.map Prod.fst).Sublist Formatter.shownAttributes := by
  unfold shown
  induction Formatter.shownAttributes with
  | nil => exact .slnil
  | cons name names ih =>
    rw [List.filterMap_cons]
    cases r.attribute? (Text.ofString name) with
    | none => exact ih.cons name
    | some v => exact ih.cons_cons name

theorem names_handled (r : Record) : (r.handledNames.map Prod.fst).Sublist ["exception"] := by
  unfold handledNames
  split <;> simp [handledObject]

/-- No name is repeated in the object of a record. -/
theorem nodup_object (r : Record) (time message : Text) : (Value.names (r.object time message)).Nodup := by
  have hnames : ((r.object time message).map Prod.fst).Sublist objectNames := by
    rw [object, List.map_append, List.map_append]
    exact ((List.Sublist.refl _).append (names_shown r)).append (names_handled r)
  have hnodup : (objectNames.map Text.ofString).Nodup := by decide
  exact (hnames.map Text.ofString).nodup hnodup

end Record

namespace Formatter

open Json (ofValue ofValues ofMembers keyText)
open Value (shownQueries shownQueriesIn shownQueriesInMembers named names)

/-- The members that the formatter gathers are those of the object. -/
theorem members_eq {r : Record} {logger levelName : Text} (h : r.IsStandard logger levelName)
    (herror : r.ErrorHasText) (time message : Text) :
    members r time message = .ok (named (r.object time message)) := by
  have hhandled : handledMembers r = .ok (named r.handledNames) := by
    unfold handledMembers handledMember Record.handledNames Record.handledReport
    cases hr : r.handled with
    | none | missing => rfl
    | error kind message report =>
      cases message with
      | ok => rfl
      | error e => exact absurd hr (herror kind e report)
    | parts v => exact absurd hr (h.handled v)
  have hshown : named r.shown = shownAttributes.filterMap fun name =>
      (r.attribute? (Text.ofString name)).map fun v => (Value.ofString name, v) := by
    unfold named Record.shown
    rw [List.map_filterMap]
    simp only [Option.map_map]
    rfl
  unfold members
  simp only [hhandled, ← hshown]
  exact congrArg Except.ok (by simp [Record.object, named])

/-! ## Failures -/

/-- A value that has no text, but for a query, is one that a fallback stands for. -/
theorem standsIn_of_hasNoText {queries : List QueryHandle} (hq : queries = []) {e : RenderFailure}
    (h : HasNoText queries e) : standsIn e = true := by
  rcases h with rfl | ⟨q, hmem, -⟩
  · rfl
  · rw [hq] at hmem
    cases hmem

/-- A value that shows no query is displayed, or its integers are in the way. -/
theorem standsIn_display {v : Value} (h : v.shownQueries = []) :
    FailsOnly (standsIn · = true) (v.display.map Json.text) :=
  ((Value.failsOnly_display v).imp fun _ => standsIn_of_hasNoText h).map Json.text

theorem standsIn_keyText (k : Value) : FailsOnly (standsIn · = true) (keyText lenient k) := by
  cases k with
  | null | bool _ | text _ | word _ | float _ => exact .of_ok _
  | int n => exact (failsOnly_intText [] n).imp fun _ => standsIn_of_hasNoText rfl
  | _ => exact .of_error rfl

mutual

/-- Whatever a value without queries holds, a fallback stands for it if it has no JSON form. -/
theorem standsIn_ofValue : ∀ v : Value, v.shownQueries = [] →
    FailsOnly (standsIn · = true) (ofValue lenient v)
  | .null, _ | .bool _, _ | .float _, _ | .text _, _ | .word _, _ => .of_ok _
  | .int n, _ => by
    have hn := (failsOnly_intText [] n).imp fun _ => standsIn_of_hasNoText rfl
    apply hn.bind
    intro t _
    exact .of_ok _
  | .list items, h | .tuple items, h => by
    apply (standsIn_ofValues items h).bind
    intro js _
    exact .of_ok _
  | .mapping members, h => by
    apply (standsIn_ofMembers members h).bind
    intro ms _
    exact .of_ok _
  | .octets _, h | .set _, h | .filter _, h | .circle _, h | .rectangle _, h | .store .., h => standsIn_display h

theorem standsIn_ofValues : ∀ vs : List Value, shownQueriesIn vs = [] →
    FailsOnly (standsIn · = true) (ofValues lenient vs)
  | [], _ => .of_ok _
  | v :: vs, h => by
    obtain ⟨hv, hvs⟩ := List.append_eq_nil_iff.1 h
    apply (standsIn_ofValue v hv).bind
    intro j _
    apply (standsIn_ofValues vs hvs).bind
    intro js _
    exact .of_ok _

theorem standsIn_ofMembers : ∀ ms : List (Value × Value), shownQueriesInMembers ms = [] →
    FailsOnly (standsIn · = true) (ofMembers lenient ms)
  | [], _ => .of_ok _
  | (k, v) :: ms, h => by
    obtain ⟨hkv, hms⟩ := List.append_eq_nil_iff.1 h
    obtain ⟨-, hv⟩ := List.append_eq_nil_iff.1 hkv
    apply (standsIn_keyText k).bind
    intro t _
    apply (standsIn_ofValue v hv).bind
    intro j _
    apply (standsIn_ofMembers ms hms).bind
    intro rest _
    exact .of_ok _

end

theorem shownQueries_named {members : List (String × Value)} (h : ∀ p ∈ members, p.2.shownQueries = []) :
    shownQueries (.mapping (named members)) = [] := by
  change shownQueriesInMembers (named members) = []
  induction members with
  | nil => rfl
  | cons p members ih =>
    obtain ⟨hp, hmembers⟩ := List.forall_mem_cons.1 h
    exact List.append_eq_nil_iff.2 ⟨hp, ih hmembers⟩

/-- A property of texts and of null that an object has where its members have it. The object of a record has it
where the attributes that are shown have it. -/
theorem forall_object {P : Value → Prop} (htext : ∀ t, P (.text t)) (hnull : P .null)
    (hobject : ∀ members, (names members).Nodup → (∀ p ∈ members, P p.2) → P (.mapping (named members)))
    {r : Record} {logger levelName : Text} (hr : r.IsStandard logger levelName) (h : ∀ p ∈ r.shown, P p.2)
    (time message : Text) : P (.mapping (named (r.object time message))) := by
  have hreport : ∀ kind message report, P kind → P message →
      ∀ p ∈ Record.handledObject kind message report, P p.2 := by
    intro kind message report hkind hmessage
    have hnames : (["type", "message", "traceback"].map Text.ofString).Nodup := by decide
    refine List.forall_mem_singleton.2 (hobject _ hnames ?_)
    simp only [List.forall_mem_cons, List.not_mem_nil, false_implies, implies_true, and_true]
    exact ⟨hkind, hmessage, htext report⟩
  refine hobject _ (r.nodup_object time message) ?_
  refine List.forall_mem_append.2 ⟨List.forall_mem_append.2 ⟨?_, h⟩, ?_⟩
  · simp only [hr.levelName, hr.logger, List.forall_mem_cons, List.not_mem_nil, false_implies, implies_true,
      and_true]
    exact ⟨htext _, htext _, htext _, htext _⟩
  · unfold Record.handledNames
    split
    · exact hreport _ _ _ hnull hnull
    · next kind message report _ =>
      refine hreport _ _ _ (htext kind) ?_
      cases message with
      | none => exact hnull
      | some t => exact htext t
    · exact nofun
    · exact nofun
    · exact nofun

/-! ## The line of a record -/

def fallbackNames : List String := ["timestamp", "level", "logger", "message", "original_message"]

theorem nodup_fallback : (fallbackNames.map Text.ofString).Nodup := by decide

/-- A fallback is an object of texts. -/
theorem exists_fallback (time message : Text) (failure : RenderFailure) :
    ∃ ms, fallback time message failure = .object ms ∧ ms.map Prod.fst = fallbackNames.map Text.ofString ∧
      ∀ m ∈ ms, ∃ t, m.2 = .text t :=
  ⟨_, rfl, rfl, by simp⟩

theorem settled_fallback (time message : Text) (failure : RenderFailure) :
    (fallback time message failure).Settled := by
  obtain ⟨ms, he, hkeys, htexts⟩ := exists_fallback time message failure
  have hsettled : ∀ m ∈ ms, m.2.Settled := by
    intro m hm
    obtain ⟨t, ht⟩ := htexts m hm
    rw [ht]
    trivial
  rw [he]
  have hms := Json.settledMembers_settle hsettled
  rwa [Json.settle_of_nodup (hkeys ▸ nodup_fallback)] at hms

/-- The data that is written for a record: its object or, if that has no JSON form, the fallback. -/
def written (r : Record) (time message : Text) : Json :=
  match ofValue lenient (.mapping (named (r.object time message))) with
  | .ok j => j
  | .error failure => fallback time message failure

theorem short_written (r : Record) (time message : Text) : (written r time message).Every Json.Short := by
  unfold written
  split
  · next hj => exact Json.short_ofValue _ _ hj
  · simp [fallback, Json.Every, Json.EveryMember, Json.Short]

/-- The object is read back under the names of its members, in order. -/
theorem readBack_ofValue {r : Record} {time message : Text} {j : Json}
    (h : ofValue lenient (.mapping (named (r.object time message))) = .ok j) :
    ∃ ms, j.readBack true = .object ms ∧ ms.map Prod.fst = names (r.object time message) := by
  obtain ⟨ms, hms, he⟩ := bind_eq_ok h
  cases he
  exact Json.readBack_object (r.nodup_object time message) (Json.keys_ofMembers hms)

/-- What is read for a record starts with four members of its own. -/
theorem exists_written (r : Record) (time message : Text) :
    ∃ ms, (written r time message).readBack true = .object ms ∧
      (ms.map Prod.fst).take 4 = ["timestamp", "level", "logger", "message"].map Text.ofString := by
  unfold written
  split
  · next hj =>
    obtain ⟨ms, hms, hkeys⟩ := readBack_ofValue hj
    exact ⟨ms, hms, hkeys ▸ rfl⟩
  · next failure _ =>
    obtain ⟨ms, he, hkeys, -⟩ := exists_fallback time message failure
    obtain ⟨is, his, hkeys⟩ := Json.readBack_object nodup_fallback hkeys
    exact ⟨is, he ▸ his, hkeys ▸ rfl⟩

/-- The text of a record is that of the data that is written for it. -/
theorem formatJson_eq {zone : Zone} {r : Record} {logger levelName time message : Text}
    (hr : r.IsStandard logger levelName) (herror : r.ErrorHasText)
    (htime : r.time >>= Timestamp.precise zone = .ok time) (hmessage : r.message = .ok message)
    (hvalues : ∀ p ∈ r.shown, p.2.shownQueries = []) :
    formatJson zone r = .ok (Json.render Json.record (written r time message)) := by
  have hqueries : shownQueries (.mapping (named (r.object time message))) = [] :=
    forall_object (P := fun v => v.shownQueries = []) (fun _ => rfl) rfl
      (fun _ _ h => shownQueries_named h) hr hvalues time message
  have hstands := standsIn_ofValue _ hqueries
  obtain ⟨n, hn, hprecise⟩ := bind_eq_ok htime
  have hform : formatJson zone r =
      match ofValue lenient (.mapping (named (r.object time message))) with
      | .ok j => .ok (Json.render Json.record j)
      | .error failure =>
        if standsIn failure then .ok (Json.render Json.record (fallback time message failure))
        else .error failure := by
    unfold formatJson
    rw [hn]
    change Timestamp.precise zone n >>= _ = _
    rw [hprecise]
    change r.message >>= _ = _
    rw [hmessage]
    change members r time message >>= _ = _
    rw [members_eq hr herror]
    rfl
  rw [hform, written]
  split
  · rfl
  · next failure he => rw [if_pos (hstands failure he)]

/-- A standard record whose time and message can be made is written as one line of printable ASCII, if no query is
shown in its attributes. The line is read as an object that starts with the members of every record, and that is
the object of the record if it has a JSON form, and else the fallback. Where the attributes that are shown are
plain, the object has a JSON form with the values of the record. -/
theorem format_object {zone : Zone} {r : Record} {logger levelName time message : Text}
    (hr : r.IsStandard logger levelName) (herror : r.ErrorHasText)
    (htime : r.time >>= Timestamp.precise zone = .ok time) (hmessage : r.message = .ok message)
    (hvalues : ∀ p ∈ r.shown, p.2.shownQueries = []) :
    ∃ line ms, effect (json.format zone) r = (.ok line, r) ∧ (∀ c ∈ line, Json.IsPrintable c) ∧
      Json.read line = .ok (.object ms) ∧
      (ms.map Prod.fst).take 4 = ["timestamp", "level", "logger", "message"].map Text.ofString ∧
      (∀ j, ofValue lenient (.mapping (named (r.object time message))) = .ok j →
        .object ms = j.readBack true ∧ ms.map Prod.fst = names (r.object time message)) ∧
      (∀ failure, ofValue lenient (.mapping (named (r.object time message))) = .error failure →
        (fallback time message failure).IsReadAs (.object ms)) ∧
      ((∀ p ∈ r.shown, Json.IsPlain p.2) → ∃ j : Json,
        j.toValue = .mapping (named (r.object time message)) ∧ j.IsReadAs (.object ms)) := by
  have hshort := short_written r time message
  obtain ⟨ms, hms, hfirst⟩ := exists_written r time message
  have hprintable := Json.isPrintable_renderAt 0 _ hshort
  refine ⟨Json.render Json.record (written r time message), ms, ?_, hprintable, ?_, hfirst, ?_, ?_, ?_⟩
  · rw [effect_json, formatJson_eq hr herror htime hmessage hvalues]
  · rw [Json.isInline_record.read_render hshort]
    exact congrArg Except.ok hms
  · intro j hj
    rw [written, hj] at hms
    obtain ⟨is, his, hkeys⟩ := readBack_ofValue hj
    obtain rfl := Json.object.inj (hms.symm.trans his)
    exact ⟨hms.symm, hkeys⟩
  · intro failure hfailure
    rw [written, hfailure] at hms
    rw [← hms]
    exact Json.isReadAs_of_settled (settled_fallback time message failure)
  · intro hplain
    obtain ⟨j, hsettled, hwritable, hvalue⟩ :=
      forall_object Json.isPlain_text Json.isPlain_null (fun _ => Json.isPlain_named) hr hplain time message
    rw [written, ← hvalue, Json.ofValue_toValue lenient j hwritable] at hms
    exact ⟨j, hvalue, hms ▸ Json.isReadAs_of_settled hsettled⟩

/-- A record with a line break in its error, halves that stand alone, and nested details. -/
def troubled : Record where
  logger := .ofString "x"
  levelName := .ofString "ERROR"
  template := .text [.ofNat 0xDE00, .scalar '\n', .ofNat 0xD83D]
  values := .null
  created := .float .zero
  handled := .error "Oops" (.ok (some "first\nsecond"))
    "Traceback (most recent call last):\n  ...\nlibrary.Oops: first\nsecond"
  report := .null
  trace := .null
  extra := [(.ofString "error_details", .mapping [(.ofString "keys", .list [.int (-5), .null])]),
    (.ofString "hidden", .set [.int 1]), (.ofString "table", .ofString "tab\t\x7f")]

def troubledObject : Json :=
  .object [("timestamp", .text "1969-12-31T22:00:00"), ("level", .text "ERROR"), ("logger", .text "x"),
    ("message", .text [.ofNat 0xDE00, .scalar '\n', .ofNat 0xD83D]), ("table", .text "tab\t\x7f"),
    ("error_details", .object [("keys", .array [.int (-5), .null])]),
    ("exception", .object [("type", .text "Oops"), ("message", .text "first\nsecond"),
      ("traceback", .text "Traceback (most recent call last):\n  ...\nlibrary.Oops: first\nsecond")])]

/-- Where local time is two hours behind universal time. -/
def west : Zone := ⟨fun _ => -7200⟩

set_option maxRecDepth 2000 in
/-- The halves stand alone, so the object is read as it is. -/
theorem format_object_troubled : ∃ line, effect (json.format west) troubled = (.ok line, troubled) ∧
    (∀ c ∈ line, Json.IsPrintable c) ∧ Json.read line = .ok troubledObject ∧
    ∃ j : Json, j.toValue = .mapping (named (troubled.object "1969-12-31T22:00:00"
      [.ofNat 0xDE00, .scalar '\n', .ofNat 0xD83D])) ∧ j.IsReadAs troubledObject := by
  have htime : troubled.time >>= Timestamp.precise west = .ok "1969-12-31T22:00:00" :=
    eq_ok_of_toOption (by decide +kernel)
  have hvalues : ∀ p ∈ troubled.shown, p.2.shownQueries = [] :=
    List.forall_mem_cons.2 ⟨rfl, List.forall_mem_singleton.2 rfl⟩
  have hshort : (Json.int (-5)).Short := show Decimal.length 5 ≤ Literal.maxIntDigits by decide
  have hdetails : Json.IsPlain (.mapping [(.ofString "keys", .list [.int (-5), .null])]) :=
    ⟨.object [("keys", .array [.int (-5), .null])], ⟨nofun, ⟨trivial, trivial, trivial⟩, trivial⟩,
      ⟨⟨trivial, trivial⟩, ⟨⟨hshort, trivial⟩, ⟨trivial, trivial⟩, trivial⟩, trivial⟩, rfl⟩
  have hplain : ∀ p ∈ troubled.shown, Json.IsPlain p.2 :=
    List.forall_mem_cons.2 ⟨Json.isPlain_text _, List.forall_mem_singleton.2 hdetails⟩
  obtain ⟨line, ms, hformat, hprintable, hread, -, hencoded, -, hvalue⟩ :=
    format_object (r := troubled) ⟨rfl, rfl, nofun, .inl rfl, .inl rfl⟩ nofun htime rfl hvalues
  have hobject : ofValue lenient (.mapping (named (troubled.object "1969-12-31T22:00:00"
    [.ofNat 0xDE00, .scalar '\n', .ofNat 0xD83D]))) = .ok troubledObject := rfl
  have hms : Json.object ms = troubledObject := (hencoded _ hobject).1
  exact ⟨line, hformat, hprintable, hms ▸ hread, hms ▸ hvalue hplain⟩

/-- A record whose message is a pair of halves. -/
def halfPair : Record where
  logger := .ofString "x"
  levelName := .ofString "INFO"
  template := .text [.ofNat 0xD83D, .ofNat 0xDE00]
  values := .null
  created := .float .zero
  handled := .none
  report := .null
  trace := .null
  extra := []

def halfPairObject (message : Text) : Json :=
  .object [("timestamp", .text "1970-01-01T00:00:00"), ("level", .text "INFO"), ("logger", .text "x"),
    ("message", .text message)]

/-- The message is read as one code point, and not as the two halves that it is. -/
theorem halfPair_not_read : halfPair.message = .ok [.ofNat 0xD83D, .ofNat 0xDE00] ∧
    ∃ line, effect (json.format .universal) halfPair = (.ok line, halfPair) ∧
      Json.read line = .ok (halfPairObject [.scalar '😀']) := by
  have hline : formatJson .universal halfPair =
      .ok (Json.render Json.record (halfPairObject [.ofNat 0xD83D, .ofNat 0xDE00])) :=
    eq_ok_of_toOption (by decide +kernel)
  refine ⟨rfl, Json.render Json.record (halfPairObject [.ofNat 0xD83D, .ofNat 0xDE00]), ?_, ?_⟩
  · rw [effect_json, hline]
  · have hpaired : Text.paired [.ofNat 0xD83D, .ofNat 0xDE00] = [.scalar '😀'] := by decide
    rw [Json.isInline_record.read_render (by simp [halfPairObject, Json.Every, Json.EveryMember, Json.Short]),
      ← hpaired]
    rfl

end Formatter

end RowQuery
