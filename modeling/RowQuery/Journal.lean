import RowQuery.Failure

/-!
# Actions

An action works on a state and records events, and it may fail. A failing action leaves the state as
far as it got and keeps the events recorded so far, so that its effect can be told from that of an
action that changes nothing.
-/

set_option autoImplicit false

namespace RowQuery

/-- How grave an event is; the five named levels are ten apart. -/
abbrev Level := Int

namespace Level

def debug : Level := 10
def info : Level := 20
def warning : Level := 30
def error : Level := 40
def critical : Level := 50

end Level

structure Event where
  level : Level
  logger : Text
  message : Text
  /-- What is recorded with the message, by name. -/
  extra : List (Value × Value)
  /-- The error that is being handled. -/
  error : Option Raised

/-- What an action did: its result, the state it left and the events it recorded. -/
structure Outcome (σ α : Type) where
  result : Except Failure α
  state : σ
  events : List Event

/-- A step on a state that may record events and may fail. -/
def Action (σ α : Type) : Type := σ → Outcome σ α

namespace Action

variable {σ τ α β : Type}

def pure (a : α) : Action σ α := fun s => ⟨.ok a, s, []⟩

def bind (x : Action σ α) (f : α → Action σ β) : Action σ β := fun s =>
  match x s with
  | ⟨.ok a, s', events⟩ =>
    let rest := f a s'
    ⟨rest.result, rest.state, events ++ rest.events⟩
  | ⟨.error e, s', events⟩ => ⟨.error e, s', events⟩

instance : Monad (Action σ) where
  pure := pure
  bind := bind

def read : Action σ σ := fun s => ⟨.ok s, s, []⟩

def write (s : σ) : Action σ Unit := fun _ => ⟨.ok (), s, []⟩

def fail (e : Failure) : Action σ α := fun s => ⟨.error e, s, []⟩

def record (events : List Event) : Action σ Unit := fun s => ⟨.ok (), s, events⟩

/-- A computation that neither reads nor writes. -/
def lift : Except Failure α → Action σ α
  | .ok a => pure a
  | .error e => fail e

/-- Works on a part of the state. -/
def zoom (get : σ → τ) (set : τ → σ → σ) (x : Action τ α) : Action σ α := fun s =>
  let o := x (get s)
  ⟨o.result, set o.state s, o.events⟩

/-- Changes the state in the end, whether the action succeeds or fails. -/
def ensuring (f : σ → σ) (x : Action σ α) : Action σ α := fun s =>
  let o := x s
  ⟨o.result, f o.state, o.events⟩

def forEach {γ : Type} (f : γ → Action σ Unit) : List γ → Action σ Unit
  | [] => pure ()
  | x :: xs => bind (f x) fun _ => forEach f xs

end Action

namespace Serialization

/-- The event of rendering a query. -/
def event (s : Serialization) : Event where
  level := .debug
  logger := "factual_query.query.serializer"
  message := Text.ofString "Serialized " ++ Text.ofNat s.parameters ++ Text.ofString " parameters"
  extra := [(.ofString "params", .int s.parameters), (.ofString "row_filters", .int s.rowFilters)]
  error := none

end Serialization

namespace Action

variable {σ α : Type}

/-- The text of a value inside a message. The queries in it are rendered. -/
def inspected (v : Value) : Action σ Shown := do
  record (v.serializations.map Serialization.event)
  lift v.inspected

/-- The text of a value in a label. The queries in it are rendered. -/
def displayed (v : Value) : Action σ Shown := do
  record (v.serializations.map Serialization.event)
  lift v.displayed

/-- Fails with a problem that shows a value. -/
def refuse (v : Value) (problem : Shown → ArgumentProblem) : Action σ α := do
  fail (.argument (problem (← inspected v)))

end Action

end RowQuery
