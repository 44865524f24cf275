import RowQuery.Proofs.Log.Extension
import RowQuery.Proofs.Log.Formatting

/-!
# Attributes behind a message

The line of a record ends with its message and some of its attributes. Main statement: they stand there as they
are, whatever the message and its values, unless the message has values and a percent sign is in an attribute.
-/

namespace RowQuery

open RowQuery.Action (effect)

set_option autoImplicit false

/-- The attributes behind a message: two labels and a duration, where they are present. -/
structure Context where
  table : Option Text
  combinator : Option Text
  duration : Option Binary64

namespace Context

/-- The attributes that are present, in order, each behind its name. The duration has two places. -/
def items (c : Context) : List Text :=
  (c.table.map fun t => Text.ofString "table=" ++ t).toList ++
    (c.combinator.map fun t => Text.ofString "combinator=" ++ t).toList ++
      (c.duration.map fun x => Text.ofString "exec_ms=" ++ x.toFixed).toList

/-- What stands behind the message. -/
def text (c : Context) : Text :=
  if c.items.isEmpty then [] else Text.ofString " [" ++ Text.join ", " c.items ++ [.scalar ']']

/-- The attributes of a record: the labels are what values of any type are displayed as. -/
structure IsOf (c : Context) (r : Record) : Prop where
  table : (r.attribute? "table").map Value.display = c.table.map .ok
  combinator : (r.attribute? "combinator").map Value.display = c.combinator.map .ok
  duration : r.attribute? "exec_ms" = c.duration.map .float

end Context

namespace Record

/-- A record whose attributes have the types that they start with: a logger and a level with names, an error
or none, and texts for reports. -/
structure IsStandard (r : Record) (logger levelName : Text) : Prop where
  logger : r.logger = .text logger
  levelName : r.levelName = .text levelName
  handled : ∀ v, r.handled ≠ .parts v
  report : r.report = .null ∨ ∃ t, r.report = .text t
  trace : r.trace = .null ∨ ∃ t, r.trace = .text t

def filled (ts : List Text) : List Text := ts.filter (!·.isEmpty)

/-- What stands below the line: the report that the record has, or else the one on the handled error, and what
is shown below that. -/
def notes (r : Record) : List Text :=
  let report := if r.report.isTruthy then r.report.text? else r.handledReport.toOption.join
  filled report.toList ++ filled r.trace.text?.toList

theorem belowValue_eq {v : Value} (hv : v = .null ∨ ∃ t, v = .text t) (head : Text) :
    belowValue head v = .ok ((filled v.text?.toList).foldl below head) := by
  rcases hv with rfl | ⟨t, rfl⟩
  · rfl
  · cases t <;> rfl

/-- The report of a standard record is a text, if there is one. -/
theorem exists_reported {r : Record} {logger levelName : Text} (h : r.IsStandard logger levelName) :
    ∃ s, r.reported = .ok s ∧ s.trace = r.trace ∧ (s.report = .null ∨ ∃ t, s.report = .text t) ∧
      filled s.report.text?.toList =
        filled (if r.report.isTruthy then r.report.text? else r.handledReport.toOption.join).toList := by
  unfold reported
  split
  · exact ⟨r, rfl, rfl, h.report, rfl⟩
  · next hfalse =>
    obtain ⟨report, hreport⟩ : ∃ report, r.handledReport = .ok report := by
      unfold handledReport
      split
      · exact ⟨_, rfl⟩
      · exact ⟨_, rfl⟩
      · exact ⟨_, rfl⟩
      · next v hparts => exact absurd hparts (h.handled v)
    rw [hreport]
    cases report with
    | none =>
      refine ⟨r, rfl, rfl, h.report, ?_⟩
      rcases h.report with hr | ⟨t, hr⟩ <;> rw [hr] at hfalse ⊢
      · rfl
      · cases t with
        | nil => rfl
        | cons => exact absurd rfl hfalse
    | some t => exact ⟨_, rfl, rfl, .inr ⟨t, rfl⟩, rfl⟩

/-- A standard record has its notes below any line. -/
theorem withReport_standard {r : Record} {logger levelName : Text} (h : r.IsStandard logger levelName)
    (head : Text) : (do (← r.reported).withReport head) = .ok (r.notes.foldl below head) := by
  obtain ⟨s, hs, htrace, hreport, hfilled⟩ := exists_reported h
  rw [hs]
  change s.withReport head = _
  rw [withReport, belowValue_eq hreport]
  change belowValue _ s.trace = _
  rw [htrace, belowValue_eq h.trace, hfilled, notes, List.foldl_append]

/-- The message of a record is its template, with the values put in if there are any. -/
theorem message_eq {r : Record} {shown : Shown} (h : r.template.displayed = .ok shown) :
    r.message = if r.values.isTruthy then Template.interpolate shown.text r.values else .ok shown.text := by
  rw [message, h]
  rfl

end Record

namespace Formatter

/-- A label stands behind the message as it is displayed. -/
theorem contextItem_label {r : Record} {name : Text} {label : Option Text}
    (h : (r.attribute? name).map Value.display = label.map .ok) :
    contextItem r name (fun v => v.displayed.map (·.text)) =
      .ok (label.map fun t => name ++ .scalar '=' :: t).toList := by
  unfold contextItem
  cases hv : r.attribute? name with
  | none =>
    cases label with
    | none => rfl
    | some t =>
      rw [hv] at h
      cases h
  | some v =>
    cases label with
    | none =>
      rw [hv] at h
      cases h
    | some t =>
      rw [hv] at h
      have hdisplay : v.display = .ok t := Option.some.inj h
      have hdisplayed : v.displayed = .ok ⟨v, t⟩ := by
        unfold Value.displayed
        rw [hdisplay]
      simp only [hdisplayed]
      rfl

/-- The attributes behind a message are those of the record. -/
theorem context_eq {r : Record} {c : Context} (h : c.IsOf r) : context r = .ok c.items := by
  have hduration : contextItem r "exec_ms" durationText =
      .ok (c.duration.map fun x => Text.ofString "exec_ms=" ++ x.toFixed).toList := by
    unfold contextItem
    rw [h.duration]
    cases c.duration <;> rfl
  unfold context
  simp only [contextItem_label h.table, contextItem_label h.combinator, hduration]
  rfl

/-- The template with the attributes behind it is displayed as such. -/
theorem extension_eq {r : Record} {c : Context} (hc : c.IsOf r) {shown : Shown}
    (hshown : r.template.displayed = .ok shown) :
    ∃ template extended, extension r = .ok template ∧ template.displayed = .ok extended ∧
      extended.text = shown.text ++ c.text := by
  unfold extension
  rw [context_eq hc]
  change ∃ template extended, withContext r.template c.items = .ok template ∧ _
  unfold withContext Context.text
  split
  · exact ⟨r.template, shown, rfl, hshown, (List.append_nil _).symm⟩
  · rw [hshown]
    refine ⟨_, _, rfl, rfl, ?_⟩
    simp only [List.append_assoc]

/-- The line of a record up to its message. -/
def lineStart (time levelName logger : Text) : Text :=
  time ++ .scalar ' ' :: levelName.padEnd 8 (.scalar ' ') ++ .scalar ' ' :: logger ++ Text.ofString ": "

/-- The line of a record up to its message, where the time has a text. -/
theorem head_eq {zone : Zone} {r : Record} {name logger time : Text} (hname : r.levelName = .text name)
    (hlogger : r.logger = .text logger) (htime : r.time >>= Timestamp.toSecond zone = .ok time) :
    head zone r = r.message.map fun m => lineStart time name logger ++ m := by
  obtain ⟨n, hn, htime⟩ := bind_eq_ok htime
  unfold head
  cases r.message with
  | error e => rfl
  | ok m =>
    rw [hname, hlogger, hn]
    change (do let time ← Timestamp.toSecond zone n; pure (lineStart time name logger ++ m)) = _
    rw [htime]
    rfl

/-- The line of a standard record, with its notes below. -/
theorem rewritten_standard {zone : Zone} {r : Record} {logger levelName time : Text}
    (h : r.IsStandard logger levelName) (htime : r.time >>= Timestamp.toSecond zone = .ok time) (name : Text)
    (template : Value) :
    rewritten zone r (.text name) template = ({ r with template := template } : Record).message.map fun m =>
      r.notes.foldl Record.below (lineStart time name logger ++ m) := by
  have hhead : head zone { r with levelName := .text name, template := template } =
      ({ r with template := template } : Record).message.map fun m => lineStart time name logger ++ m :=
    head_eq rfl h.logger htime
  rw [rewritten, hhead]
  cases ({ r with template := template } : Record).message with
  | error e => rfl
  | ok m => exact Record.withReport_standard h _

/-- What a formatter for people gives for a standard record: the message is that of the template with the
attributes behind it. -/
theorem result_standard {zone : Zone} {r : Record} {logger levelName time : Text} {c : Context}
    (h : r.IsStandard logger levelName) (htime : r.time >>= Timestamp.toSecond zone = .ok time) (hc : c.IsOf r)
    {shown : Shown} (hshown : r.template.displayed = .ok shown) (colored : Bool) :
    (effect ((text colored).format zone) r).1 =
      (if r.values.isTruthy then Template.interpolate (shown.text ++ c.text) r.values
        else .ok (shown.text ++ c.text)).map fun m => r.notes.foldl Record.below
          (lineStart time (if colored then paint levelName else levelName) logger ++ m) := by
  obtain ⟨template, extended, hextension, hextended, htext⟩ := extension_eq hc hshown
  have hlevel : shownLevel colored r = .ok (.text (if colored then paint levelName else levelName)) := by
    unfold shownLevel
    rw [h.levelName]
    cases colored <;> rfl
  have hmessage : ({ r with template := template } : Record).message = _ := Record.message_eq hextended
  change (effect (formatText zone colored) r).1 = _
  rw [result_formatText, hlevel, hextension]
  change rewritten zone r (.text _) template = _
  rw [rewritten_standard h htime, hmessage, htext]

/-- A standard record whose own message can be made is formatted with its attributes behind the message as they
are, unless the message has values and a percent sign is in an attribute. Where the values are taken in order,
the percent sign makes the record fail, or is lost. -/
theorem format_context {zone : Zone} {r : Record} {logger levelName time m : Text} {c : Context}
    (hstandard : r.IsStandard logger levelName) (htime : r.time >>= Timestamp.toSecond zone = .ok time)
    (hmessage : r.message = .ok m) (hcontext : c.IsOf r) (colored : Bool) :
    let start := lineStart time (if colored then paint levelName else levelName) logger
    let result := (effect ((text colored).format zone) r).1
    (r.values.isTruthy = false ∨ .scalar '%' ∉ c.text →
        result = .ok (r.notes.foldl Record.below (start ++ (m ++ c.text)))) ∧
      (r.values.isTruthy = true → (Template.Supply.ofValue r.values).access = .inOrder →
        .scalar '%' ∈ c.text → (∃ e, result = .error e) ∨ ∃ w, w.length < c.text.length ∧
          result = .ok (r.notes.foldl Record.below (start ++ (m ++ w)))) := by
  intro start result
  obtain ⟨shown, hshown, -⟩ := bind_eq_ok hmessage
  have hresult : result = _ := result_standard hstandard htime hcontext hshown colored
  rw [Record.message_eq hshown] at hmessage
  constructor
  · intro hplain
    cases hvalues : r.values.isTruthy with
    | false =>
      rw [hvalues] at hmessage hresult
      cases hmessage
      exact hresult
    | true =>
      rw [hvalues] at hmessage hresult hplain
      have hpercent := hplain.resolve_left Bool.noConfusion
      rw [if_pos rfl] at hmessage hresult
      rw [hresult, Template.interpolate_literal hmessage hpercent]
      rfl
  · intro hvalues horder hpercent
    rw [if_pos hvalues] at hmessage hresult
    rw [hresult]
    rcases Template.interpolate_percent hmessage horder hpercent with ⟨e, he⟩ | ⟨w, hw, he⟩
    · exact .inl ⟨e, by rw [he]; rfl⟩
    · exact .inr ⟨w, hw, by rw [he]; rfl⟩

/-- A record with an error and its trace, whose values have percent signs in them. -/
def halfDone : Record where
  logger := .ofString "x"
  levelName := .ofString "INFO"
  template := .ofString "%d%% (%s)"
  values := .tuple [.int 50, .ofString "50%"]
  created := .float .zero
  handled := .error "KeyError" (.ok (some "'k'")) "Traceback (most recent call last):\n  ...\nKeyError: 'k'"
  report := .null
  trace := .null
  extra := [(.ofString "exec_ms", .float .zero), (.ofString "table", .ofString "places")]

/-- The attributes stand behind the message in their own order. The time is that of a zone an hour ahead. -/
theorem format_context_halfDone : (effect ((text true).format ⟨fun _ => 3600⟩) halfDone).1 =
    .ok (Text.ofString "1970-01-01 01:00:00 \x1b[32mINFO\x1b[0m x: 50% (50%) [table=places, exec_ms=0.00]\n" ++
      Text.ofString "Traceback (most recent call last):\n  ...\nKeyError: 'k'") := by
  have hstandard : halfDone.IsStandard "x" "INFO" := ⟨rfl, rfl, nofun, .inl rfl, .inl rfl⟩
  have htime : halfDone.time >>= Timestamp.toSecond ⟨fun _ => 3600⟩ = .ok (Text.ofString "1970-01-01 01:00:00") :=
    eq_ok_of_toOption (by decide +kernel)
  have hmessage : halfDone.message = .ok (Text.ofString "50% (50%)") := eq_ok_of_toOption (by decide +kernel)
  have hcontext : (Context.mk (some "places") none (some .zero)).IsOf halfDone := ⟨rfl, rfl, rfl⟩
  rw [(format_context hstandard htime hmessage hcontext true).1 (.inr (by decide +kernel))]
  exact congrArg Except.ok (by decide +kernel)

def halfTable : Record where
  logger := .ofString "x"
  levelName := .ofString "INFO"
  template := .ofString "got %d"
  values := .tuple [.int 3]
  created := .float .zero
  handled := .none
  report := .null
  trace := .null
  extra := [(.ofString "table", .ofString "50%")]

/-- The message can be made, and the percent sign asks for another value. -/
theorem percent_not_literal : halfTable.message = .ok (Text.ofString "got 3") ∧
    (effect ((text false).format .universal) halfTable).1 = .error (.defect (.template .tooFewValues)) :=
  ⟨rfl, rfl⟩

end Formatter

end RowQuery
