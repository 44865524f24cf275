import Mathlib.Data.List.Forall2
import RowQuery.Log.Formatter
import RowQuery.Proofs.Action

/-!
# Formatters on one record

Formatters that a record reaches one after the other work on the same record, and each of them may change it
on its way. Two changes last. A record keeps the report on the handled error, which makes no difference to
anything shown. And a record keeps the colour of its level name where an attribute behind the message has no
text. Main statement: nothing else is ever left of a formatter.
-/

namespace RowQuery

open RowQuery.Action (effect)

set_option autoImplicit false

namespace Record

/-! ## The report on the handled error -/

/-- The record itself, or the record with the report on the handled error. -/
def MayKeepReport (r s : Record) : Prop := s = r ∨ r.reported = .ok s

/-- A record has a report, or gets the one on the handled error. -/
theorem reported_cases {r s : Record} (h : r.reported = .ok s) :
    r.report.isTruthy = true ∧ s = r ∨ r.report.isTruthy = false ∧ ∃ report,
      r.handledReport = .ok report ∧ s = { r with report := report.elim r.report Value.text } := by
  unfold reported at h
  split at h
  · next htrue =>
    cases h
    exact .inl ⟨htrue, rfl⟩
  · next hfalse =>
    cases hreport : r.handledReport with
    | error e =>
      rw [hreport] at h
      cases h
    | ok report =>
      rw [hreport] at h
      cases h
      exact .inr ⟨Bool.eq_false_iff.2 hfalse, report, rfl, rfl⟩

/-- A report changes no other part of a record. -/
theorem eq_of_reported {r s : Record} (h : r.reported = .ok s) : s = { r with report := s.report } := by
  rcases reported_cases h with ⟨-, rfl⟩ | ⟨-, report, -, rfl⟩ <;> rfl

/-- A report is worked out once. -/
theorem reported_reported {r s : Record} (h : r.reported = .ok s) : s.reported = .ok s := by
  rcases reported_cases h with ⟨-, rfl⟩ | ⟨-, report, hreport, rfl⟩
  · exact h
  · have hsame : ({ r with report := report.elim r.report Value.text } : Record).handledReport =
        .ok report := hreport
    unfold reported
    rw [hsame]
    cases report <;> exact ite_self _

/-- The report does not depend on the level name and the template. -/
theorem reported_rewrite (r : Record) (levelName template : Value) :
    ({ r with levelName := levelName, template := template } : Record).reported =
      r.reported.map fun s => { s with levelName := levelName, template := template } := by
  unfold reported
  split
  · rfl
  · have hsame : ({ r with levelName := levelName, template := template } : Record).handledReport =
        r.handledReport := rfl
    rw [hsame]
    cases r.handledReport <;> rfl

namespace MayKeepReport

variable {r s t : Record}

theorem refl (r : Record) : r.MayKeepReport r := .inl rfl

theorem trans (hs : r.MayKeepReport s) (ht : s.MayKeepReport t) : r.MayKeepReport t := by
  rcases hs with rfl | hs
  · exact ht
  · rcases ht with rfl | ht
    · exact .inr hs
    · rw [reported_reported hs] at ht
      cases ht
      exact .inr hs

/-- But for the report the records are the same. -/
theorem eq (h : r.MayKeepReport s) : s = { r with report := s.report } := by
  rcases h with rfl | h
  · rfl
  · exact eq_of_reported h

theorem levelName (h : r.MayKeepReport s) : s.levelName = r.levelName := by rw [h.eq]

theorem template (h : r.MayKeepReport s) : s.template = r.template := by rw [h.eq]

theorem reported (h : r.MayKeepReport s) : s.reported = r.reported := by
  rcases h with rfl | h
  · rfl
  · rw [reported_reported h, h]

end MayKeepReport

end Record

namespace Formatter

/-! ## Colours -/

def HasColor (r : Record) : Prop := ∃ p ∈ colors, r.levelName = .ofString p.1

theorem paint_of_no_color {t : Text} (h : ∀ p ∈ colors, Text.ofString p.1 ≠ t) : paint t = t := by
  have hnone : (colors.find? fun p => Text.ofString p.1 = t) = none :=
    List.find?_eq_none.2 fun p hp => by simpa using h p hp
  unfold paint
  rw [hnone]

/-- A level name in its colour starts with an escape sequence. -/
theorem head?_paint {t : Text} {p : String × String} (hp : p ∈ colors) (ht : Text.ofString p.1 = t) :
    (paint t).head? = some (.scalar '\x1b') := by
  unfold paint
  split
  · rfl
  · next hnone => exact absurd (List.find?_eq_none.1 hnone p hp) (by simp [ht])

theorem head?_color {p : String × String} (hp : p ∈ colors) :
    (Text.ofString p.1).head? ≠ some (.scalar '\x1b') := by
  have hall : ∀ p ∈ colors, (Text.ofString p.1).head? ≠ some (.scalar '\x1b') := by decide
  exact hall p hp

/-- A painted name is no name of a level, so it is not painted again. -/
theorem paint_paint (t : Text) : paint (paint t) = paint t := by
  by_cases h : ∃ p ∈ colors, Text.ofString p.1 = t
  · obtain ⟨p, hp, ht⟩ := h
    exact paint_of_no_color fun q hq he => head?_color hq (he ▸ head?_paint hp ht)
  · have hplain : paint t = t := paint_of_no_color fun p hp ht => h ⟨p, hp, ht⟩
    rw [hplain, hplain]

/-- What is painted is a text, or is left as it is. -/
theorem paintValue_cases {v w : Value} (h : paintValue v = .ok w) :
    (∃ t, v = .text t ∧ w = .text (paint t)) ∨ (∀ t, v ≠ .text t) ∧ w = v := by
  unfold paintValue at h
  split at h
  · cases h
    exact .inl ⟨_, rfl, rfl⟩
  · next hne _ =>
    cases h
    exact .inr ⟨hne, rfl⟩
  · cases h

theorem paintValue_painted {v w : Value} (h : paintValue v = .ok w) : paintValue w = .ok w := by
  rcases paintValue_cases h with ⟨t, rfl, rfl⟩ | ⟨-, rfl⟩
  · exact congrArg (fun u => Except.ok (Value.text u)) (paint_paint t)
  · exact h

/-- Painting leaves the level name as it is exactly where it has no colour. -/
theorem paintValue_eq_iff {r : Record} {w : Value} (h : paintValue r.levelName = .ok w) :
    w = r.levelName ↔ ¬ HasColor r := by
  rcases paintValue_cases h with ⟨t, ht, rfl⟩ | ⟨hne, rfl⟩
  · rw [ht]
    constructor
    · rintro hpaint ⟨p, hp, hname⟩
      rw [ht] at hname
      cases hname
      have hhead := head?_paint hp rfl
      rw [Value.text.inj hpaint] at hhead
      exact head?_color hp hhead
    · intro hcolor
      refine congrArg Value.text (paint_of_no_color fun p hp hname => hcolor ⟨p, hp, ?_⟩)
      rw [ht, ← hname]
      rfl
  · exact iff_of_true rfl fun ⟨p, _, hname⟩ => hne _ hname

/-! ## One formatter -/

section

variable (zone : Zone)

/-- The formatter for machines leaves the record as it is. -/
theorem effect_json (r : Record) : effect (json.format zone) r = (formatJson zone r, r) := by simp [format]

/-- The template with the attributes behind it. -/
def extension (r : Record) : Except Failure Value := do withContext r.template (← context r)

theorem extension_mayKeepReport {r s : Record} (h : r.MayKeepReport s) : extension s = extension r := by
  rw [h.eq]
  rfl

/-- A line from its level name and its template, with the report below. -/
def rewritten (r : Record) (levelName template : Value) : Except Failure Text := do
  let head ← head zone { r with levelName := levelName, template := template }
  (← r.reported).withReport head

/-- A line fails, or leaves the report on its record at most. -/
theorem effect_line (r : Record) :
    (effect (line zone) r).1 = (do let head ← head zone r; (← r.reported).withReport head) ∧
      r.MayKeepReport (effect (line zone) r).2 := by
  simp only [line, Action.effect_bind, Action.effect_read, Action.andThen_ok, Action.effect_lift]
  cases head zone r with
  | error e => exact ⟨rfl, .refl r⟩
  | ok head =>
    simp only [Action.andThen_ok, Action.effect_bind, Action.effect_lift]
    cases hreported : r.reported with
    | error e => exact ⟨rfl, .refl r⟩
    | ok s =>
      simp only [Action.andThen_ok, Action.effect_bind, Action.effect_write, Action.effect_lift]
      exact ⟨rfl, .inr hreported⟩

/-- With level name and template put back, a rewritten record keeps the report at most. -/
theorem mayKeepReport_rewrite {r s : Record} {levelName template : Value}
    (h : ({ r with levelName := levelName, template := template } : Record).MayKeepReport s) :
    r.MayKeepReport { s with levelName := r.levelName, template := r.template } := by
  rcases h with rfl | h
  · exact .refl r
  · rw [Record.reported_rewrite] at h
    cases hreported : r.reported with
    | error e =>
      rw [hreported] at h
      cases h
    | ok u =>
      rw [hreported] at h
      cases h
      refine .inr (hreported.trans (congrArg Except.ok ?_))
      rw [Record.eq_of_reported hreported]

/-- What a formatter for people does: it fails before it changes anything, it fails with the level name
painted, or it gets to the line. -/
theorem formatText_cases (colored : Bool) (r : Record) :
    (∃ e, shownLevel colored r = .error e ∧ effect (formatText zone colored) r = (.error e, r)) ∨
      (∃ name e, shownLevel colored r = .ok name ∧ extension r = .error e ∧
        effect (formatText zone colored) r = (.error e, { r with levelName := name })) ∨
      ∃ name template, shownLevel colored r = .ok name ∧ extension r = .ok template ∧
        (effect (formatText zone colored) r).1 = rewritten zone r name template ∧
        r.MayKeepReport (effect (formatText zone colored) r).2 := by
  simp only [formatText, Action.effect_bind, Action.effect_read, Action.andThen_ok, Action.effect_lift]
  cases shownLevel colored r with
  | error e => exact .inl ⟨e, rfl, rfl⟩
  | ok name =>
    refine .inr ?_
    have hcontext : context { r with levelName := name } = context r := rfl
    simp only [Action.andThen_ok, Action.effect_bind, Action.effect_write, Action.effect_lift, hcontext]
    unfold extension
    cases context r with
    | error e => exact .inl ⟨name, e, rfl, rfl, rfl⟩
    | ok items =>
      simp only [Action.andThen_ok, Action.effect_bind, Action.effect_lift]
      cases hextended : withContext r.template items with
      | error e => exact .inl ⟨name, e, rfl, hextended, rfl⟩
      | ok template =>
        simp only [Action.andThen_ok, Action.effect_bind, Action.effect_write, Action.effect_ensuring]
        obtain ⟨hresult, hstate⟩ := effect_line zone { r with levelName := name, template := template }
        refine .inr ⟨name, template, rfl, hextended, ?_, mayKeepReport_rewrite hstate⟩
        rw [hresult, Record.reported_rewrite, rewritten]
        cases head zone { r with levelName := name, template := template } with
        | error e => rfl
        | ok head => cases r.reported <;> rfl

/-- What a formatter for people gives. -/
theorem result_formatText (colored : Bool) (r : Record) : (effect (formatText zone colored) r).1 = (do
    let name ← shownLevel colored r
    rewritten zone r name (← extension r)) := by
  rcases formatText_cases zone colored r with ⟨e, hname, he⟩ | ⟨name, e, hname, htemplate, he⟩ |
    ⟨name, template, hname, htemplate, he, -⟩
  · rw [he, hname]
    rfl
  · rw [he, hname, htemplate]
    rfl
  · rw [he, hname, htemplate]
    rfl

/-- A report on the record makes no difference to what a formatter gives. -/
theorem result_mayKeepReport (f : Formatter) {r s : Record} (h : r.MayKeepReport s) :
    (effect (f.format zone) s).1 = (effect (f.format zone) r).1 := by
  have hreported := h.reported
  have heq := h.eq
  generalize s.report = report at heq
  subst heq
  cases f with
  | json =>
    rw [effect_json, effect_json]
    rfl
  | text colored =>
    simp only [format, result_formatText, rewritten, hreported]
    rfl

/-- A formatter gives what it would give first, and the record has its own template and level name after it. -/
def Undisturbed (f : Formatter) (r : Record) (p : Except Failure Text × Record) : Prop :=
  p.1 = (effect (f.format zone) r).1 ∧ p.2.template = r.template ∧ p.2.levelName = r.levelName

/-- A formatter leaves a colour on the record: it paints the level name, and an attribute behind the message
has no text. -/
def LeavesColor (f : Formatter) (r : Record) : Prop :=
  f = .text true ∧ HasColor r ∧ ∃ e, extension r = .error e

theorem leavesColor_mayKeepReport {f : Formatter} {r s : Record} (h : r.MayKeepReport s) :
    f.LeavesColor s ↔ f.LeavesColor r := by
  rw [LeavesColor, LeavesColor, HasColor, HasColor, h.levelName, extension_mayKeepReport h]

/-- A formatter that leaves no colour leaves the report at most. -/
theorem state_format {f : Formatter} {r : Record} (h : ¬ f.LeavesColor r) :
    r.MayKeepReport (effect (f.format zone) r).2 := by
  cases f with
  | json =>
    rw [effect_json]
    exact .refl r
  | text colored =>
    change r.MayKeepReport (effect (formatText zone colored) r).2
    rcases formatText_cases zone colored r with ⟨e, -, he⟩ | ⟨name, e, hname, htemplate, he⟩ |
      ⟨-, -, -, -, -, hstate⟩
    · rw [he]
      exact .refl r
    · have hkept : name = r.levelName := by
        cases colored with
        | false => exact (Except.ok.inj hname).symm
        | true => exact (paintValue_eq_iff hname).2 fun hcolor => h ⟨rfl, hcolor, e, htemplate⟩
      rw [he, hkept]
      exact .refl r
    · exact hstate

/-- Where an attribute behind the message has no text, the level name stays as it is shown. -/
theorem formatText_unextended {colored : Bool} {r : Record} {name : Value} {e : Failure}
    (hname : shownLevel colored r = .ok name) (he : extension r = .error e) :
    effect (formatText zone colored) r = (.error e, { r with levelName := name }) := by
  rcases formatText_cases zone colored r with ⟨e', hname', -⟩ | ⟨name', e', hname', he', hformat⟩ |
    ⟨-, template, -, htemplate, -⟩
  · cases hname.symm.trans hname'
  · cases hname.symm.trans hname'
    cases he.symm.trans he'
    exact hformat
  · cases he.symm.trans htemplate

/-- A formatter that leaves a colour leaves nothing else. -/
theorem format_leavesColor {f : Formatter} {r : Record} (h : f.LeavesColor r) :
    ∃ name e, paintValue r.levelName = .ok name ∧ name ≠ r.levelName ∧ extension r = .error e ∧
      effect (f.format zone) r = (.error e, { r with levelName := name }) := by
  obtain ⟨rfl, hcolor, e, he⟩ := h
  obtain ⟨name, hname⟩ : ∃ name, paintValue r.levelName = .ok name := by
    obtain ⟨p, -, hlevel⟩ := hcolor
    rw [hlevel]
    exact ⟨_, rfl⟩
  exact ⟨name, e, hname, fun hkept => (paintValue_eq_iff hname).1 hkept hcolor, he,
    formatText_unextended zone hname he⟩

/-! ## Formatters one after the other -/

/-- What formatters give one after the other, and the record after each of them. -/
def formatAll : List Formatter → Record → List (Except Failure Text × Record)
  | [], _ => []
  | f :: fs, r => effect (f.format zone) r :: formatAll fs (effect (f.format zone) r).2

/-- All formatters in turn are undisturbed exactly where none of them leaves a colour. -/
theorem undisturbed_formatAll {fs : List Formatter} {r s : Record} (hs : r.MayKeepReport s) :
    List.Forall₂ (fun f p => f.Undisturbed zone r p) fs (formatAll zone fs s) ↔ ∀ f ∈ fs, ¬ f.LeavesColor r := by
  induction fs generalizing s with
  | nil => exact iff_of_true .nil nofun
  | cons f fs ih =>
    rw [formatAll, List.forall₂_cons, List.forall_mem_cons]
    -- The record that a formatter gets is the first one, up to a report, as long as no colour stays.
    by_cases hcolor : f.LeavesColor r
    · obtain ⟨name, e, -, hne, -, he⟩ := format_leavesColor zone ((leavesColor_mayKeepReport hs).2 hcolor)
      refine iff_of_false ?_ fun hall => hall.1 hcolor
      rintro ⟨⟨-, -, hlevel⟩, -⟩
      rw [he] at hlevel
      exact hne (hlevel.trans hs.levelName.symm)
    · have hstate : r.MayKeepReport (effect (f.format zone) s).2 :=
        hs.trans (state_format zone fun h => hcolor ((leavesColor_mayKeepReport hs).1 h))
      have hfirst : f.Undisturbed zone r (effect (f.format zone) s) :=
        ⟨result_mayKeepReport zone f hs, hstate.template, hstate.levelName⟩
      rw [ih hstate]
      exact and_congr (iff_of_true hfirst hcolor) .rfl

/-- What is so of every formatter in a row: the template is kept, the level name at most painted, formatters
for people give what they would have given first, and those for machines too, up to the level name. -/
structure Settles (f : Formatter) (r : Record) (p : Except Failure Text × Record) : Prop where
  template : p.2.template = r.template
  levelName : p.2.levelName = r.levelName ∨ paintValue r.levelName = .ok p.2.levelName
  people : f ≠ .json → p.1 = (effect (f.format zone) r).1
  machines : p.1 = (effect (f.format zone) r).1 ∨ ∃ name, paintValue r.levelName = .ok name ∧
    p.1 = (effect (f.format zone) { r with levelName := name }).1

/-- The record with the report at most, and with the level name painted if an attribute has no text. -/
def MayKeepColor (r s : Record) : Prop :=
  r.MayKeepReport s ∨ ∃ t name e, r.MayKeepReport t ∧ paintValue r.levelName = .ok name ∧
    extension r = .error e ∧ s = { t with levelName := name }

/-- On a record whose level name stayed painted every formatter for people fails, and changes nothing. -/
theorem formatText_painted {r : Record} {name : Value} {e : Failure}
    (hname : paintValue r.levelName = .ok name) (he : extension r = .error e) (colored : Bool) :
    (effect (formatText zone colored) r).1 = .error e ∧
      effect (formatText zone colored) { r with levelName := name } = (.error e, { r with levelName := name }) := by
  have hpainted : shownLevel colored { r with levelName := name } = .ok name := by
    cases colored with
    | false => rfl
    | true => exact paintValue_painted hname
  refine ⟨?_, formatText_unextended zone hpainted he⟩
  obtain ⟨shown, hshown⟩ : ∃ shown, shownLevel colored r = .ok shown := by
    cases colored with
    | false => exact ⟨_, rfl⟩
    | true => exact ⟨_, hname⟩
  rw [formatText_unextended zone hshown he]

theorem format_mayKeepColor (f : Formatter) {r s : Record} (hs : MayKeepColor r s) :
    f.Settles zone r (effect (f.format zone) s) ∧ MayKeepColor r (effect (f.format zone) s).2 := by
  rcases hs with hs | ⟨t, name, e, ht, hname, he, rfl⟩
  · have hresult := result_mayKeepReport zone f hs
    by_cases hcolor : f.LeavesColor s
    · obtain ⟨name, e, hname, -, he, hformat⟩ := format_leavesColor zone hcolor
      rw [hs.levelName] at hname
      rw [extension_mayKeepReport hs] at he
      rw [hformat] at hresult ⊢
      exact ⟨⟨hs.template, .inr hname, fun _ => hresult, .inl hresult⟩, .inr ⟨s, name, e, hs, hname, he, rfl⟩⟩
    · have hstate := hs.trans (state_format zone hcolor)
      exact ⟨⟨hstate.template, .inl hstate.levelName, fun _ => hresult, .inl hresult⟩, .inl hstate⟩
  · -- Once a colour stays, formatters for people fail on the same attribute, and the rest change nothing.
    have hstays : MayKeepColor r { t with levelName := name } := .inr ⟨t, name, e, ht, hname, he, rfl⟩
    cases f with
    | json =>
      rw [effect_json]
      refine ⟨⟨ht.template, .inr hname, fun hf => absurd rfl hf, .inr ⟨name, hname, ?_⟩⟩, hstays⟩
      rw [effect_json, ht.eq]
      rfl
    | text colored =>
      rw [← ht.levelName] at hname
      rw [← extension_mayKeepReport ht] at he
      obtain ⟨hfirst, hlater⟩ := formatText_painted zone hname he colored
      have hresult : .error e = (effect ((text colored).format zone) r).1 :=
        hfirst.symm.trans (result_mayKeepReport zone (text colored) ht)
      change Settles zone _ r (effect (formatText zone colored) _) ∧ MayKeepColor r (effect (formatText zone colored) _).2
      rw [hlater]
      exact ⟨⟨ht.template, .inr (ht.levelName ▸ hname), fun _ => hresult, .inl hresult⟩, hstays⟩

/-- What formatters give in turn, from a record that may be coloured already. -/
theorem settles_formatAll {fs : List Formatter} {r s : Record} (hs : MayKeepColor r s) :
    List.Forall₂ (fun f p => f.Settles zone r p) fs (formatAll zone fs s) := by
  induction fs generalizing s with
  | nil => exact .nil
  | cons f fs ih =>
    obtain ⟨hfirst, hstate⟩ := format_mayKeepColor zone f hs
    exact .cons hfirst (ih hstate)

/-- Formatters one after the other give what each of them gives first, and keep template and level name,
unless one of them leaves a colour; and that is all that is ever left of one. -/
theorem formatAll_undisturbed (fs : List Formatter) (r : Record) :
    (List.Forall₂ (fun f p => f.Undisturbed zone r p) fs (formatAll zone fs r) ↔ ∀ f ∈ fs, ¬ f.LeavesColor r) ∧
      List.Forall₂ (fun f p => f.Settles zone r p) fs (formatAll zone fs r) :=
  ⟨undisturbed_formatAll zone (.refl r), settles_formatAll zone (.inl (.refl r))⟩

end

/-- A record with a text for a duration. -/
def untimed : Record where
  logger := .ofString "x"
  levelName := .ofString "INFO"
  template := .ofString "m"
  values := .null
  created := .float .zero
  handled := .none
  report := .null
  trace := .null
  extra := [(.ofString "exec_ms", .ofString "slow")]

def untimedObject (levelName : Text) : Text :=
  Text.ofString "\x7b\"timestamp\": \"1970-01-01T00:00:00\", \"level\": \"" ++ levelName ++
    Text.ofString "\", \"logger\": \"x\", \"message\": \"m\", \"exec_ms\": \"slow\"\x7d"

/-- A formatter in colour fails on the duration. The name of the level stays green, and is so in what the next
formatter gives. -/
theorem coloredLevel_left :
    (formatAll .universal [.text true, .json] untimed).map (fun p => (p.1.toOption, p.2.levelName.text?)) =
        [(none, some (Text.ofString "\x1b[32mINFO\x1b[0m")),
          (some (untimedObject "\\u001b[32mINFO\\u001b[0m"), some (Text.ofString "\x1b[32mINFO\x1b[0m"))] ∧
      (effect (json.format .universal) untimed).1.toOption = some (untimedObject "INFO") := by
  decide +kernel

end Formatter

end RowQuery
