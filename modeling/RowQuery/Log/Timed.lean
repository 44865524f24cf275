import RowQuery.Log.Emission

/-!
# Timed operations

An operation is reported when it starts and when it ends, with the milliseconds that it took. A
failure of the operation is reported as an error and passed on. A failure to report takes its place.
-/

set_option autoImplicit false

namespace RowQuery

structure Timing where
  operation : Text
  logger : Text
  level : Level
  /-- What every report carries. -/
  context : List (Value × Value)
  /-- The time in seconds at the start. -/
  start : Binary64
  /-- The time in seconds at the end. -/
  stop : Binary64

/-- A state with the duration of the operation that ran on it. -/
structure Timed (σ : Type) where
  duration : Option Binary64
  state : σ

namespace Timing

/-- The milliseconds between start and end. -/
def duration (t : Timing) : Binary64 := (t.stop.sub t.start).times 1000

def finalContext (t : Timing) : List (Value × Value) :=
  Value.insertMember t.context (.ofString "exec_ms") (.float t.duration)

def startEvent (t : Timing) : Event :=
  ⟨t.level, t.logger, t.operation ++ Text.ofString " started", t.context, none⟩

def endEvent (t : Timing) : Event :=
  ⟨t.level, t.logger, t.operation ++ Text.ofString " completed", t.finalContext, none⟩

def failureEvent (t : Timing) (e : Raised) : Event :=
  ⟨.error, t.logger, t.operation ++ Text.ofString " failed",
    Value.insertMember t.finalContext (.ofString "error_kind") (.text e.kind.name), some e⟩

/-- The names of the parts of a timing, which its reports cannot carry. -/
def ownNames : List String := ["self", "operation", "logger", "level"]

/-- Fails where the reports are to carry a part of the timing, or what has no name. -/
def check (t : Timing) : Except Failure Unit :=
  if t.context.any fun m => m.1.text?.isNone then .error (.defect .badKeyword)
  else
    let isOwn (name : Text) : Bool := ownNames.any fun own => Text.ofString own = name
    match (t.context.filterMap fun m => m.1.text?).find? isOwn with
    | some name => .error (.defect (.repeatedArgument name))
    | none => .ok ()

/-- Runs an operation between its reports. -/
def run {σ α : Type} (t : Timing) (threshold : Level) (body : Action σ α) : Action (Timed σ) α := do
  Action.lift t.check
  Action.emit threshold t.startEvent
  let before ← Action.read
  let o := body before.state
  Action.record o.events
  Action.write ⟨some t.duration, o.state⟩
  match o.result with
  | .ok a => do
    Action.emit threshold t.endEvent
    pure a
  | .error e => do
    Action.emit threshold (t.failureEvent e.toRaised)
    Action.fail e

end Timing

end RowQuery
