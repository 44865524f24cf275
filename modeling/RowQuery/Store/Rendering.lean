import RowQuery.Filter.Wire
import RowQuery.Json.Printer
import RowQuery.Store.Basic
import RowQuery.Url.Form

/-!
# Query strings of stores

Every entry of a store becomes one field of a query string, in the order of the store. Truth values
are lower case words, double precision numbers have two places, lists and mappings are compact JSON,
comma lists are joined by commas, and row filters are a JSON array.
-/

set_option autoImplicit false

namespace RowQuery

namespace Value

def render : Value → Except RenderFailure Text
  | bool b => .ok (if b then "true" else "false")
  | float x => .ok x.toFixed
  | v@(list _) | v@(mapping _) => v.toJsonText
  | v => v.display

/-- The queries whose texts are part of the text of a parameter value. -/
def renderedQueries : Value → List QueryHandle
  | list _ | mapping _ => []
  | v => v.shownQueries

end Value

def renderCommaList (values : List Value) : Except RenderFailure Text :=
  (values.mapM Value.render).map (Text.join [.scalar ','])

namespace Entry

def render : Entry → Except RenderFailure Text
  | scalar v => v.render
  | commaList values => renderCommaList values
  | rowFilters filters => (Value.list (RowFilter.toWires filters)).toJsonText

def renderedQueries : Entry → List QueryHandle
  | scalar v => v.renderedQueries
  | commaList values => values.flatMap Value.renderedQueries
  | rowFilters _ => []

end Entry

namespace Store

def fields (s : Store) : Except RenderFailure (List (Value × Text)) :=
  s.entries.mapM fun e => e.2.render.map fun t => (e.1, t)

/-- The query string; empty for an empty store. -/
def toQueryString (s : Store) : Except RenderFailure Text := s.fields >>= Form.encode

/-- What rendering the store records: first the queries that it holds, then the store itself. -/
def serializations (s : Store) : List Serialization :=
  let inner := (s.entries.flatMap fun e => e.2.renderedQueries).flatMap (·.serializations)
  match s.toQueryString with
  | .ok _ => inner ++ [⟨s.entries.length, s.rowFilters.length⟩]
  | .error _ => inner

/-- Renders the store. -/
def rendered : Action Store Text := do
  let s ← Action.read
  Action.record (s.serializations.map Serialization.event)
  Action.lift (s.toQueryString.mapError fun f => .defect (.unrenderable f))

end Store

end RowQuery
