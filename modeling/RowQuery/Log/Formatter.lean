import RowQuery.Json.Printer
import RowQuery.Log.Record
import RowQuery.Log.Timestamp

/-!
# Formatters

A formatter turns a record into text: one JSON object for machines, or one line for people, in colour
on a terminal. The line for people shows some attributes after the message. It is made by rewriting
the record, which is put back when the line is done, up to the report on an error: it stays.
-/

set_option autoImplicit false

namespace RowQuery

/-- A formatter for machines, or one for people. -/
inductive Formatter where
  | json
  | text (colored : Bool)
  deriving DecidableEq

namespace Formatter

/-- The attributes of a record that are part of a JSON object, in order. -/
def shownAttributes : List String :=
  ["table", "params", "row_filters", "combinator", "operands", "exec_ms", "error_kind", "error_code",
    "error_details"]

/-- The member of an object for the handled error, from the name of its kind and its message. -/
def handledMember (r : Record) (kind message : Value) : Except Failure (List (Value × Value)) := do
  let report : Value := ((← r.handledReport).map Value.text).getD .null
  pure [(.ofString "exception", .mapping [(.ofString "type", kind), (.ofString "message", message),
    (.ofString "traceback", report)])]

/-- The member of an object for a value in place of an error. -/
def partsMember (r : Record) (parts : Value) : Except Failure (List (Value × Value)) := do
  let kind ← parts.element 0
  if kind.isTruthy then .error (.defect (.noAttribute kind.typeName "__name__"))
  else
    let error ← parts.element 1
    let message : Value ←
      if error.isTruthy then error.displayed.map fun s => .text s.text else pure .null
    handledMember r .null message

/-- The members of an object for the handled error. -/
def handledMembers (r : Record) : Except Failure (List (Value × Value)) :=
  match r.handled with
  | .none => .ok []
  | .missing => handledMember r .null .null
  | .error kind message _ => do handledMember r (.text kind) ((← message).elim .null .text)
  | .parts v => partsMember r v

def members (r : Record) (timestamp message : Text) : Except Failure (List (Value × Value)) := do
  let own := [(.ofString "timestamp", .text timestamp), (.ofString "level", r.levelName),
    (.ofString "logger", r.logger), (.ofString "message", .text message)]
  let shown := shownAttributes.filterMap fun name =>
    (r.attribute? (Text.ofString name)).map fun v => (.ofString name, v)
  pure (own ++ shown ++ (← handledMembers r))

/-- The object that stands for a record that has no JSON form. -/
def fallback (timestamp message : Text) (failure : RenderFailure) : Json :=
  .object [("timestamp", .text timestamp), ("level", .text "ERROR"),
    ("logger", .text "factual_query.logging"),
    ("message", .text (Text.ofString "Failed to serialize log record: " ++ failure.message)),
    ("original_message", .text message)]

/-- Values of types that JSON lacks are displayed, and NaN and the infinities are words. -/
def lenient : Json.Leniency := ⟨true, true⟩

/-- Whether a failure says that a record has no JSON form, so that a fallback stands for it: the types
or the values are bad. Any other failure is passed on. -/
def standsIn (failure : RenderFailure) : Bool :=
  failure.kind.lineage.any fun kind => kind = .type || kind = .value

/-- The JSON object of a record, on one line. -/
def formatJson (zone : Zone) (r : Record) : Except Failure Text := do
  let timestamp ← Timestamp.precise zone (← r.time)
  let message ← r.message
  match Json.ofValue lenient (.mapping (← members r timestamp message)) with
  | .ok j => pure (Json.render Json.record j)
  | .error failure =>
    if standsIn failure then pure (Json.render Json.record (fallback timestamp message failure))
    else .error failure

/-- The colours of the levels. What ends a colour stands among them, so it is the colour of a level
of that name. -/
def colors : List (String × String) :=
  [("DEBUG", "36"), ("INFO", "32"), ("WARNING", "33"), ("ERROR", "31"), ("CRITICAL", "35"),
    ("RESET", "0")]

/-- A level name in its colour, if it has one. -/
def paint (levelName : Text) : Text :=
  match colors.find? fun p => Text.ofString p.1 = levelName with
  | some p =>
    Text.ofString "\x1b[" ++ Text.ofString p.2 ++ .scalar 'm' :: levelName ++
      Text.ofString "\x1b[0m"
  | none => levelName

/-- A value in place of a level name; only a text has a colour, and only a key can be looked for. -/
def paintValue (v : Value) : Except Failure Value :=
  match v, v.key with
  | .text t, _ => .ok (.text (paint t))
  | _, .ok _ => .ok v
  | _, .error type => .error (.defect (.unhashable type))

def durationText : Value → Except Failure Text
  | .float x => .ok x.toFixed
  | v =>
    match Template.int? v with
    | some n =>
      if (Binary64.ofInt n).isFinite then .ok (Binary64.ofInt n).toFixed
      else .error (.defect .tooLarge)
    | none =>
      match v.text? with
      | some _ => .error (.defect (.badFormat "str"))
      | none => .error (.defect (.noFormat v.typeName))

/-- One attribute behind the message, where the record has it. -/
def contextItem (r : Record) (name : Text) (show? : Value → Except Failure Text) :
    Except Failure (List Text) :=
  match r.attribute? name with
  | none => .ok []
  | some v => (show? v).map fun t => [name ++ .scalar '=' :: t]

def context (r : Record) : Except Failure (List Text) := do
  let display (v : Value) : Except Failure Text := v.displayed.map (·.text)
  let table ← contextItem r "table" display
  let combinator ← contextItem r "combinator" display
  let duration ← contextItem r "exec_ms" durationText
  pure (table ++ combinator ++ duration)

/-- A template with attributes behind it. -/
def withContext (template : Value) (items : List Text) : Except Failure Value :=
  if items.isEmpty then .ok template
  else do
    let shown ← template.displayed
    pure (.text (shown.text ++ Text.ofString " [" ++ Text.join ", " items ++ [.scalar ']']))

/-- The line of a record as it stands, up to the message. -/
def head (zone : Zone) (r : Record) : Except Failure Text := do
  let message ← r.message
  let time ← Timestamp.toSecond zone (← r.time)
  let levelName ← r.levelName.displayed
  let logger ← r.logger.displayed
  pure (time ++ .scalar ' ' :: levelName.text.padEnd 8 (.scalar ' ') ++ .scalar ' ' ::
    logger.text ++ Text.ofString ": " ++ message)

/-- The line of the record as it stands, with the report of the error below. The record keeps the
report. -/
def line (zone : Zone) : Action Record Text := do
  let r ← Action.read
  let head ← Action.lift (head zone r)
  let r ← Action.lift r.reported
  Action.write r
  Action.lift (r.withReport head)

def shownLevel (colored : Bool) (r : Record) : Except Failure Value :=
  if colored then paintValue r.levelName else .ok r.levelName

/-- Formats a record for people. The level name is painted and the template extended on the record
itself. Both are put back in the end, but not if an attribute has no text. -/
def formatText (zone : Zone) (colored : Bool) : Action Record Text := do
  let r ← Action.read
  let levelName ← Action.lift (shownLevel colored r)
  let painted := { r with levelName := levelName }
  Action.write painted
  let items ← Action.lift (context painted)
  let template ← Action.lift (withContext painted.template items)
  Action.write { painted with template := template }
  Action.ensuring (fun s => { s with levelName := r.levelName, template := r.template }) (line zone)

/-- Formats a record, in a zone of local time. -/
def format (zone : Zone) : Formatter → Action Record Text
  | json => do Action.lift (formatJson zone (← Action.read))
  | text colored => formatText zone colored

end Formatter

end RowQuery
