import RowQuery.Log.Level
import RowQuery.Log.Template
import RowQuery.Value.Element

/-!
# Log records

A record is an event as the formatters see it, with the time of the event. Its message is a template
for the values that come with it; a record without values shows its template as it is. What comes with
an event may take the place of the record's own attributes, so these are values of any type.
-/

set_option autoImplicit false

namespace RowQuery

/-- What a record says of the error that was being handled. -/
inductive Handled where
  | none
  /-- There was no error to handle, but one was asked for. -/
  | missing
  /-- An error: the name of its kind, its message, which may have no text or be left out, and the
  report on it with its trace and the errors that led to it. -/
  | error (kind : Text) (message : Except Failure (Option Text)) (report : Text)
  /-- A value in place of an error: its kind, the error and its trace are looked for in the value. -/
  | parts (v : Value)

/-- An error whose report is the line that ends every report: it has no trace and no cause. -/
def Handled.ofRaised (e : Raised) : Handled := .error e.kind.name (.ok (some e.text)) e.line

structure Record where
  logger : Value
  levelName : Value
  template : Value
  /-- The values of the template. -/
  values : Value
  /-- Seconds since the start of 1970. -/
  created : Value
  handled : Handled
  /-- Shown below the message. The report on the handled error is kept here once it is made. -/
  report : Value
  /-- Shown below the report. -/
  trace : Value
  /-- Further attributes, by name. -/
  extra : List (Value × Value)

namespace Record

/-- The values of a message; a mapping that comes alone is not wrapped. -/
def unwrap (v : Value) : Except Failure Value := do
  if !v.isTruthy then pure v
  else if (← v.length) ≠ 1 then pure v
  else
    match ← v.element 0 with
    | .mapping members => pure (if members.isEmpty then v else .mapping members)
    | _ => pure v

def ofEvent (created : Binary64) (e : Event) : Record where
  logger := .text e.logger
  levelName := .text e.level.name
  template := .text e.message
  values := .null
  created := .float created
  handled := e.error.elim .none .ofRaised
  report := .null
  trace := .null
  extra := e.extra

/-- Gives the record an attribute, which may be one of its own. -/
def assign (r : Record) (name v : Value) : Record :=
  let isNamed (own : String) : Bool := name.text? = some (Text.ofString own)
  if isNamed "name" then { r with logger := v }
  else if isNamed "levelname" then { r with levelName := v }
  else if isNamed "msg" then { r with template := v }
  else if isNamed "args" then { r with values := v }
  else if isNamed "created" then { r with created := v }
  else if isNamed "exc_info" then { r with handled := if v.isTruthy then .parts v else .none }
  else if isNamed "exc_text" then { r with report := v }
  else if isNamed "stack_info" then { r with trace := v }
  else { r with extra := Value.insertMember r.extra name v }

/-- A further attribute. -/
def attribute? (r : Record) (name : Text) : Option Value := Value.lookup? r.extra (.text name)

def message (r : Record) : Except Failure Text := do
  let template ← r.template.displayed
  if r.values.isTruthy then Template.interpolate template.text r.values else pure template.text

def time (r : Record) : Except Failure Number :=
  match r.created with
  | .int n => .ok (.int n)
  | .bool b => .ok (.int (if b then 1 else 0))
  | .float x => .ok (.float x)
  | v => .error (.defect (.notTime v.typeName))

/-- The report where there was no error. -/
def missingReport : Text := "NoneType: None"

/-- The report on a value in place of an error. It has no trace to show, and it is no error. -/
def partsReport (v : Value) : Except Failure Text := do
  let trace ← v.element 2
  let _ ← v.element 0
  match ← v.element 1, trace with
  | .null, .null => pure missingReport
  | error, .null => .error (.defect (.noAttribute error.typeName "__suppress_context__"))
  | _, trace => .error (.defect (.noAttribute trace.typeName "tb_frame"))

def handledReport (r : Record) : Except Failure (Option Text) :=
  match r.handled with
  | .none => .ok none
  | .missing => .ok (some missingReport)
  | .error _ _ report => .ok (some report)
  | .parts v => (partsReport v).map some

/-- Puts a text on a line of its own. -/
def below (head t : Text) : Text :=
  (if head.getLast? = some (.scalar '\n') then head else head ++ [.scalar '\n']) ++ t

/-- Puts a value that must be a text on a line of its own, unless it is empty. -/
def belowValue (head : Text) (v : Value) : Except Failure Text :=
  if !v.isTruthy then .ok head
  else
    match v.text? with
    | some t => .ok (below head t)
    | none => .error (.defect (.notJoinable v.typeName))

/-- The record with the report on the handled error, unless it has a report. -/
def reported (r : Record) : Except Failure Record :=
  if r.report.isTruthy then .ok r
  else r.handledReport.map fun report => { r with report := report.elim r.report Value.text }

/-- A message with what is shown below it. -/
def withReport (r : Record) (head : Text) : Except Failure Text := do
  belowValue (← belowValue head r.report) r.trace

end Record

end RowQuery
