import RowQuery.Proofs.Store.Families
import RowQuery.Query.Call

/-!
# Runs of queries

A run is a sequence of calls on a family of queries, whether the calls succeed or not. All queries
start without parameters.
-/

namespace RowQuery

set_option autoImplicit false

namespace Family

/-- The family of queries on which nothing was called. -/
def fresh : Family := ⟨[]⟩

theorem get_fresh (name : Text) : fresh.get name = Store.empty defaultKey := rfl

end Family

namespace Query

/-- A step of a run: a call of the query under a name. -/
def step (self : Text) (c : Call) : Action Family Unit := Family.upToDate self (c.run self)

/-- The family after steps from a given one. -/
def run (family : Family) (steps : List (Text × Call)) : Family :=
  steps.foldl (fun family st => (step st.1 st.2 family).state) family

end Query

end RowQuery
