import RowQuery.Query.Basic
import RowQuery.Store.Family

/-!
# Runs of queries

The calls that build queries, and their effect on a family of queries. A call works on one query; a
fold also reads the row filters of the queries that are its arguments.
-/

set_option autoImplicit false

namespace RowQuery.Query

inductive Call where
  | limit (v : Value)
  | offset (v : Value)
  | search (term : Value)
  | searchExact (term : Value)
  | within (shape : Value)
  | sort (direction : Direction) (field : Value)
  | sortBlend (rank distance : Value)
  | only (fields : List Value)
  | includeRowCount (wanted : Value)
  | threshold (v : Value)
  | addFilter (f : Value)
  | fold (combinator : Combinator) (queries : List Value)
  /-- A predicate with one operand. -/
  | predicate (key : Value) (operator : Operator) (operand : Value)
  /-- A predicate with any number of operands. -/
  | predicateAny (key : Value) (operator : Operator) (operands : List Value)

/-- The effect of a call on its query, among a family of queries. -/
def Call.run (self : Text) : Call → Action Family Unit
  | limit v => Family.focus self (Query.limit v)
  | offset v => Family.focus self (Query.offset v)
  | search term => Family.focus self (Query.search term)
  | searchExact term => Family.focus self (Query.searchExact term)
  | within shape => Family.focus self (Query.within shape)
  | sort direction field => Family.focus self (Query.sort direction field)
  | sortBlend rank distance => Family.focus self (Query.sortBlend rank distance)
  | only fields => Family.focus self (Query.only fields)
  | includeRowCount wanted => Family.focus self (Query.includeRowCount wanted)
  | threshold v => Family.focus self (Query.threshold v)
  | addFilter f => Family.focus self (Store.addFilter f)
  | fold combinator queries => do
    let names ← Action.lift (sourceNames (flatten queries))
    let _ ← Family.fold self combinator names
    pure ()
  | predicate key operator operand => Family.focus self (addPredicate key operator operand)
  | predicateAny key operator operands =>
    Family.focus self (addPredicate key operator (.list (flatten operands)))

end RowQuery.Query
