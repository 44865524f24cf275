import RowQuery.Journal
import RowQuery.Value.Key

/-!
# Emission of events

An event is recorded if it is grave enough. What is recorded with it may not take the name of an
attribute that every record has: the names before the first such name are kept, and the call fails.
-/

set_option autoImplicit false

namespace RowQuery

namespace Level

/-- Whether events of a level are recorded. A threshold never lets level zero pass. -/
def passes (threshold level : Level) : Bool := (0 : Int) < level && threshold ≤ level

end Level

namespace Event

/-- The attributes that every record has. -/
def ownAttributes : List String :=
  ["message", "asctime", "name", "msg", "args", "levelname", "levelno", "pathname", "filename",
    "module", "exc_info", "exc_text", "stack_info", "lineno", "funcName", "created", "msecs",
    "relativeCreated", "thread", "threadName", "processName", "process"]

/-- Whether a name is free for what comes with an event. -/
def isFree (name : Value) : Bool :=
  match name.text? with
  | some t => !ownAttributes.any fun own => Text.ofString own = t
  | none => true

/-- What comes with an event before the first name that is taken, and that name. -/
def settle (extra : List (Value × Value)) : List (Value × Value) × Option Value :=
  let kept := extra.takeWhile fun m => isFree m.1
  (kept, (extra.drop kept.length).head?.map Prod.fst)

end Event

namespace Action

variable {σ : Type}

/-- Records an event that passes the threshold. -/
def emit (threshold : Level) (e : Event) : Action σ Unit :=
  if !threshold.passes e.level then pure ()
  else
    let (kept, taken) := Event.settle e.extra
    bind (record [{ e with extra := kept }]) fun _ =>
      match taken.bind Value.text? with
      | none => pure ()
      | some name => fail (.defect (.attributeTaken name))

end Action

/-- Records an error with a context, which must be a mapping if it is not empty. The library's own
errors add their code and their details. -/
def logError {σ : Type} (threshold : Level) (logger : Text) (e : Raised) (context : Value) :
    Action σ Unit := do
  let given ← match context with
    | .mapping members => Pure.pure members
    | v => if v.isTruthy then Action.fail (.defect (.notMapping v.typeName)) else Pure.pure []
  let named := given.foldl (fun ms m => Value.insertMember ms m.1 m.2)
    [(.ofString "error_kind", .text e.kind.name)]
  let coded := e.code.elim named fun c => Value.insertMember named (.ofString "error_code") (.text c)
  let detailed :=
    if e.details.isTruthy then Value.insertMember coded (.ofString "error_details") e.details
    else coded
  Action.emit threshold ⟨.error, logger, Text.ofString "Error: " ++ e.text, detailed, none⟩

end RowQuery
