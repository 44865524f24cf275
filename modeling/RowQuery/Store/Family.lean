import RowQuery.Store.Payload

/-!
# Families of stores

Several stores under names. An operation works on one of them and may read the row filters of the
others. A store that was never written is empty.
-/

set_option autoImplicit false

namespace RowQuery

structure Family where
  members : List (Text × Store)

namespace Family

def defaultKey : Text := Parameter.filters.name

def findMember (members : List (Text × Store)) (name : Text) : Store :=
  ((members.find? fun m => m.1 = name).map Prod.snd).getD (Store.empty defaultKey)

def insertMember (members : List (Text × Store)) (name : Text) (s : Store) : List (Text × Store) :=
  match members with
  | [] => [(name, s)]
  | (n, t) :: ms => if n = name then (n, s) :: ms else (n, t) :: insertMember ms name s

def get (family : Family) (name : Text) : Store := findMember family.members name

def put (name : Text) (s : Store) (family : Family) : Family :=
  ⟨insertMember family.members name s⟩

/-- Works on the store of a name. -/
def focus {α : Type} (name : Text) (x : Action Store α) : Action Family α :=
  Action.zoom (fun family => family.get name) (put name) x

/-- The row filters of the named stores other than `self`, in order; a name may repeat. -/
def joined (family : Family) (self : Text) (names : List Text) : List RowFilter :=
  (names.filter (· ≠ self)).flatMap fun name => (family.get name).rowFilters

/-- Folds the row filters of a store and of the named ones into one group of the store. -/
def fold (self : Text) (combinator : Combinator) (names : List Text) :
    Action Family (Option RowFilter) := do
  let family ← Action.read
  focus self (Store.fold combinator (family.joined self names))

/-- The row filters that the sources of a fold add, in order. The store itself adds none; a query is
no store, so it adds those of its store whichever that is. -/
def sourceFilters (family : Family) (self : Text) : List Value → Except Failure (List RowFilter)
  | [] => .ok []
  | .store name _ :: vs =>
    (sourceFilters family self vs).map fun fs =>
      if name = self then fs else (family.get name).rowFilters ++ fs
  | .query q :: vs => (sourceFilters family self vs).map ((family.get q.name).rowFilters ++ ·)
  | v :: _ => .error (.defect (.noAttribute v.typeName "row_filters"))

/-- Folds, where combinator and sources are any values. -/
def foldValues (self : Text) (combinator sources : Value) : Action Family (Option RowFilter) := do
  let c ← Combinator.ofValue combinator
  let family ← Action.read
  let joined ← Action.lift (sources.loop >>= family.sourceFilters self)
  focus self (Store.fold c joined)

end Family

end RowQuery
