import RowQuery.Store.Family

/-!
# Queries as values

A query that is passed as a value shows its text. The text is that of the moment of use, so before a
store is used the queries in it are brought up to date. Row filters keep the queries in them as they
were when the filter was made.
-/

set_option autoImplicit false

namespace RowQuery

namespace Value

mutual

/-- Replaces the queries in a value by name. -/
def withQueries (f : Text → QueryHandle) : Value → Value
  | query q => query (f q.name)
  | list items => list (allWithQueries f items)
  | tuple items => tuple (allWithQueries f items)
  | set items => set (allWithQueries f items)
  | mapping members => mapping (membersWithQueries f members)
  | v => v

def allWithQueries (f : Text → QueryHandle) : List Value → List Value
  | [] => []
  | v :: vs => withQueries f v :: allWithQueries f vs

def membersWithQueries (f : Text → QueryHandle) : List (Value × Value) → List (Value × Value)
  | [] => []
  | (k, v) :: ms => (withQueries f k, withQueries f v) :: membersWithQueries f ms

end

end Value

namespace Entry

def withQueries (f : Text → QueryHandle) : Entry → Entry
  | scalar v => scalar (v.withQueries f)
  | commaList values => commaList (Value.allWithQueries f values)
  | rowFilters filters => rowFilters filters

end Entry

namespace Store

def withQueries (f : Text → QueryHandle) (s : Store) : Store :=
  { s with entries := s.entries.map fun e => (e.1.withQueries f, e.2.withQueries f) }

end Store

namespace Family

/-- A query as a value, where at most `depth` queries stand inside each other. -/
def handleWithin (family : Family) : Nat → Text → QueryHandle
  | 0, name => ⟨name, .error .endless, []⟩
  | depth + 1, name =>
    let s := (family.get name).withQueries (handleWithin family depth)
    ⟨name, s.toQueryString, s.serializations⟩

/-- More queries than there are cannot stand inside each other without a cycle. -/
def depth (family : Family) : Nat := family.members.length + 2

/-- A query of the family as a value. -/
def handle (family : Family) (name : Text) : QueryHandle := family.handleWithin family.depth name

/-- The family with the queries in one of its stores brought up to date. -/
def refresh (family : Family) (name : Text) : Family :=
  put name ((family.get name).withQueries family.handle) family

end Family

end RowQuery
