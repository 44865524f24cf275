import RowQuery.Journal
import RowQuery.Value.Equality

/-!
# Parameter stores

A store holds one entry per key, in the order in which the keys were first written. A scalar is
replaced by every write; a comma list and the row filters grow. The row filters stand under one key,
as a list, until they are folded into one group.

The operations check everything before they write, so a failing one changes nothing.
-/

set_option autoImplicit false

namespace RowQuery

inductive Entry where
  | scalar (v : Value)
  | commaList (values : List Value)
  | rowFilters (filters : List RowFilter)

def Entry.kind : Entry → EntryKind
  | scalar _ => .scalar
  | commaList _ => .commaList
  | rowFilters _ => .rowFilters

structure Store where
  /-- The key of the row filters. -/
  rowFilterKey : Text
  entries : List (Value × Entry)

namespace Store

def empty (rowFilterKey : Text) : Store := ⟨rowFilterKey, []⟩

def findEntry? (entries : List (Value × Entry)) (key : Value) : Option Entry :=
  (entries.find? fun e => e.1.sameKey key).map Prod.snd

/-- Replaces the entry of a key in its place, or adds one at the end. -/
def insertEntry (entries : List (Value × Entry)) (key : Value) (entry : Entry) :
    List (Value × Entry) :=
  match entries with
  | [] => [(key, entry)]
  | (k, e) :: es => if k.sameKey key then (k, entry) :: es else (k, e) :: insertEntry es key entry

def get? (s : Store) (key : Value) : Option Entry := findEntry? s.entries key

def put (s : Store) (key : Value) (entry : Entry) : Store :=
  { s with entries := insertEntry s.entries key entry }

def keys (s : Store) : List Value := s.entries.map Prod.fst

/-- The row filters, in order; none where another kind of entry stands under their key. -/
def rowFilters (s : Store) : List RowFilter :=
  match s.get? (.text s.rowFilterKey) with
  | some (.rowFilters filters) => filters
  | _ => []

/-- Whether a value may be a scalar parameter. -/
def isScalar : Value → Bool
  | .text _ | .bool _ | .int _ | .float _ | .mapping _ | .list _ => true
  | _ => false

/-- Fails with a problem that shows a key and a value. -/
def refuse {α : Type} (key value : Value) (problem : Shown → Shown → ArgumentProblem) :
    Action Store α := do
  let k ← Action.displayed key
  let v ← Action.inspected value
  Action.fail (.argument (problem k v))

/-- The entry under a key; fails where the value is no key. -/
def look (key : Value) : Action Store (Option Entry) := do
  match key.key with
  | .error type => Action.fail (.defect (.unhashable type))
  | .ok _ => return (← Action.read).get? key

/-- Fails because a key has an entry of another kind. -/
def conflict {α : Type} (key : Value) (entry : Entry) : Action Store α := do
  Action.fail (.conflict (← Action.displayed key) entry.kind)

def save (key : Value) (entry : Entry) : Action Store Unit := do
  Action.write ((← Action.read).put key entry)

def event (message : Text) (extra : List (Value × Value)) : Event :=
  ⟨.debug, "factual_query.query.store", message, extra, none⟩

/-- Records that a scalar takes the place of another kind of entry. -/
def noteReplaced (key : Value) (old : Option Entry) : Action Store Unit :=
  match old with
  | none | some (.scalar _) => pure ()
  | some old => do
    let k ← Action.displayed key
    Action.record [event (Text.ofString "Replacing " ++ old.kind.name ++ Text.ofString " entry '" ++
      k.text ++ Text.ofString "' with a scalar") []]

/-- Writes a scalar; it replaces any entry of the key. -/
def set (key value : Value) : Action Store Unit := do
  let value := value.normalize
  if !isScalar value then refuse key value .unsupportedScalar
  else if !value.isFinite then refuse key value .nonFiniteParameter
  else do
    noteReplaced key (← look key)
    save key (.scalar value)

def append (key value : Value) : Action Store Unit := do
  let value := value.normalize
  if !value.isFinite then refuse key value .nonFiniteParameter
  else
    match ← look key with
    | none => save key (.commaList [value])
    | some (.commaList values) => save key (.commaList (values ++ [value]))
    | some entry => conflict key entry

/-- The row filters, where no other kind of entry keeps them from being written. -/
def openRowFilters : Action Store (List RowFilter) := do
  let s ← Action.read
  match s.get? (.text s.rowFilterKey) with
  | none => pure []
  | some (.rowFilters filters) => pure filters
  | some entry => conflict (.text s.rowFilterKey) entry

def saveRowFilters (filters : List RowFilter) : Action Store Unit := do
  save (.text (← Action.read).rowFilterKey) (.rowFilters filters)

def addRowFilter (f : RowFilter) : Action Store Unit := do
  let filters ← openRowFilters
  saveRowFilters (filters ++ [f])

/-- Adds a value that must be a row filter. -/
def addFilter (v : Value) : Action Store Unit :=
  match v with
  | .filter f => addRowFilter f
  | v => Action.fail (.argument (.notRowFilter v.typeName))

def groupName (combinator : Combinator) : Text := combinator.wire ++ Text.ofString " group"

/-- Replaces the row filters by one group, whose operands are the row filters and then the joined
ones. Without operands nothing happens. -/
def fold (combinator : Combinator) (joined : List RowFilter) : Action Store (Option RowFilter) := do
  let operands := (← Action.read).rowFilters ++ joined
  if operands.isEmpty then
    Action.record [event (Text.ofString "Nothing to fold into " ++ groupName combinator) []]
    pure none
  else
    let _ ← openRowFilters
    let f := RowFilter.group combinator operands
    saveRowFilters [f]
    Action.record [event
      (Text.ofString "Folded " ++ Text.ofNat operands.length ++ Text.ofString " row filters into " ++
        groupName combinator)
      [(.ofString "combinator", .text combinator.wire),
        (.ofString "operands", .int operands.length)]]
    pure (some f)

end Store

/-- The combinator that a value names. -/
def Combinator.ofValue {σ : Type} (v : Value) : Action σ Combinator := do
  let v := v.normalize
  match v.text?.bind Combinator.ofWire? with
  | some c => pure c
  | none => Action.fail (.defect (.badCombinator (← Action.inspected v)))

end RowQuery
